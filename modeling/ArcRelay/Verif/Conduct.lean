import ArcRelay.Lib.Conduct
import ArcRelay.System
import ArcRelay.Verif.Handshake

/-!
# How the operations of the runtime conduct themselves

Which sessions an operation registers, reports or remembers, and which pairings it
stores, in terms of the calls it has made before. Nothing is assumed of the replies:
what the world and the other operations do is for the users of these guarantees.
-/

namespace ArcRelay

open Async
open Program (Trail trail_concat)

/-- The key a dial expects. -/
def ExpectedPeer.key : ExpectedPeer → DevicePublicKey
  | .advertised peer => peer.publicKey
  | .paired peer => peer.publicKey

/-- The session an operation confirms the pairing of. -/
def Operation.confirms : Operation → Option Session
  | .completePairing pending => some pending.session
  | .confirmPairing session _ => some session
  | _ => none

/-- The key under which an operation dials. -/
def Operation.dialKey : Operation → Option SessionKey
  | .connect peer kind => some (peer.deviceId, kind)
  | .connectRemembered id kind => some (id, kind)
  | .connectPairedAt id _ kind => some (id, kind)
  | _ => none

/-- The calls of which an operation has nothing to guarantee. -/
def Call.plain : Call → Bool
  | .register _ _ | .report _ _ _ | .observeAuthenticated _ | .recordAuthenticated _ _ _ _
  | .savePairing _ _ | .startRace _ _ _ _ | .claim _ _ | .select _ _ | .joinNext _
  | .shutdownRace _ | .awaitRace _ | .lockGate _ | .unlockGate _ => false
  | _ => true

/-- The calls that only dials make. -/
def Call.ofDials : Call → Bool
  | .startRace _ _ _ _ | .joinNext _ | .shutdownRace _ | .awaitRace _ | .lockGate _
  | .unlockGate _ => true
  | _ => false

/-- No session has been registered. -/
def Unregistered (past : List Moment) : Prop := ∀ moment ∈ past, moment.call.toRegister = none

/-- What both ends of a handshake know of their session. -/
structure OnConnection (runtime : Runtime) (connection : Connection) (session : Session) :
    Prop where
  connection : session.connection = connection
  direct : session.relayTunnel = none
  bound : runtime.platform.verifyKey session.peer.deviceId session.peer.publicKey = .ok ()
  other : session.peer.deviceId ≠ runtime.deviceId

/-- A session that the peer has opened. -/
structure Inbound (runtime : Runtime) (connection : Connection) (session : Session) : Prop
    extends OnConnection runtime connection session where
  initiator : session.rank.initiatorId = session.peer.deviceId

/-- A session to the peer a dial expects. -/
structure Found (runtime : Runtime) (expected : ExpectedPeer) (kind : SessionKind)
    (connection : Connection) (session : Session) : Prop
    extends OnConnection runtime connection session where
  id : session.peer.deviceId = expected.id
  key : session.peer.publicKey = expected.key
  kind : session.kind = kind

/-- What a dialling operation expects, given what it has read. -/
inductive Dials (past : List Moment) : Operation → ExpectedPeer → SessionKind → Prop
  | connect (peer : PeerAdvertisement) (kind : SessionKind) :
    Dials past (.connect peer kind) (.advertised peer) kind
  | remembered (id : DeviceId) (kind : SessionKind) (record : PeerRecord)
    (read : ReadPaired past id record) :
    Dials past (.connectRemembered id kind) (.paired record) kind
  | pairedAt (id : DeviceId) (addresses : List SocketAddr) (kind : SessionKind)
    (record : PeerRecord) (read : ReadPaired past id record) :
    Dials past (.connectPairedAt id addresses kind) (.paired record) kind

/-- The session was joined in a race for the expected peer. -/
def Joined (past : List Moment) (expected : ExpectedPeer) (kind : SessionKind)
    (session : Session) : Prop :=
  ∃ started candidates recovery race joined result,
    ⟨started, .startRace expected kind candidates recovery, race⟩ ∈ past ∧
      ⟨joined, .joinNext race, some result⟩ ∈ past ∧ result.result = .ok session

/-- Which sessions an operation registers, and how it publishes them. -/
inductive Registers (self : Runtime) (past : List Moment) : Operation → Session → Publish → Prop
  /-- The accept loop registers a session on an incoming connection, its first. -/
  | incoming (world : World) (connection : Connection) (session : Session)
    (opened : ⟨world, .incoming, .ok connection⟩ ∈ past)
    (inbound : Inbound self connection session) (first : Unregistered past) :
    Registers self past .acceptIncoming session .ifSame
  /-- `accept_input_relay` registers a session through its tunnel, its first. -/
  | accepted (source : DeviceId) (world : World) (tunnel : RelayTunnel) (connection : Connection)
    (session : Session) (opened : ⟨world, .throughTunnel tunnel true, .ok connection⟩ ∈ past)
    (inbound : Inbound self connection session) (kind : session.kind = .realtimeInput)
    (first : Unregistered past) :
    Registers self past (.acceptInputRelay source) { session with relayTunnel := some tunnel }
      .always
  /-- `connect_input_relay` registers a session through its tunnel, its first. -/
  | relayed (target : DeviceId) (record : PeerRecord) (world : World) (tunnel : RelayTunnel)
    (connection : Connection) (session : Session) (read : ReadPaired past target record)
    (opened : ⟨world, .throughTunnel tunnel false, .ok connection⟩ ∈ past)
    (found : Found self (.paired record) .realtimeInput connection session)
    (first : Unregistered past) :
    Registers self past (.connectInputRelay target) { session with relayTunnel := some tunnel }
      .never
  | dialled (operation : Operation) (expected : ExpectedPeer) (kind : SessionKind)
    (session : Session) (dials : Dials past operation expected kind)
    (joined : Joined past expected kind session) : Registers self past operation session .never

/-- A candidate reports a session to the peer its race is for. -/
def Reports (self : Runtime) (past : List Moment) (race : Nat) (session : Session) : Prop :=
  ∃ claimed index entry address opened recovery connection,
    ⟨claimed, .claim race index, (entry, address)⟩ ∈ past ∧
      ⟨opened, .connect address recovery, .ok connection⟩ ∈ past ∧
        Found self entry.expected entry.kind connection session

/-- Of which sessions an operation remembers the address. -/
inductive Remembers (self : Runtime) (past : List Moment) : Operation → Session → Prop
  | incoming (world : World) (connection : Connection) (session : Session)
    (opened : ⟨world, .incoming, .ok connection⟩ ∈ past)
    (inbound : Inbound self connection session) : Remembers self past .acceptIncoming session
  | dialled (operation : Operation) (expected : ExpectedPeer) (kind : SessionKind) (world : World)
    (session registered : Session) (sent : Bool) (dials : Dials past operation expected kind)
    (registers : ⟨world, .register session .never, (.ok registered, sent)⟩ ∈ past) :
    Remembers self past operation registered
  | confirmed (operation : Operation) (session : Session)
    (confirms : operation.confirms = some session) (kind : session.kind = .pairing) :
    Remembers self past operation session

/-- What an operation guarantees of its calls. -/
def Proper (self : Runtime) (operation : Operation) (past : List Moment) : Call → Prop
  | .register session publish => Registers self past operation session publish
  | .report race index result => operation = .candidate race index ∧
    ∀ session, result.result = .ok session → Reports self past race session
  | .claim race index | .select race index => operation = .candidate race index
  | .startRace _ _ _ _ | .joinNext _ | .shutdownRace _ | .awaitRace _ | .lockGate _
  | .unlockGate _ => operation.dialKey.isSome = true
  | .observeAuthenticated peer => ∃ session now, peer = Runtime.sessionAdvertisement session now ∧
    Remembers self past operation session
  | .recordAuthenticated _ address _ _ => ∃ session, address = Runtime.dialAddress session ∧
    Remembers self past operation session
  | .savePairing record _ => ∃ session now, operation.confirms = some session ∧
    session.kind = .pairing ∧ record = Runtime.pairingRecord session now
  | _ => True

/-- The contract of an operation. -/
def properly (self : Runtime) (operation : Operation) : Program.Contract World Call.Reply :=
  ⟨Proper self operation, fun _ _ => True⟩

/-- The contract of what makes plain calls only. -/
def plainly : Program.Contract World Call.Reply :=
  ⟨fun _ call => call.plain = true, fun _ _ => True⟩

/-- Nothing has been reported. -/
def Unreported (past : List Moment) : Prop :=
  ∀ moment ∈ past, ∀ race index result, moment.call ≠ .report race index result

/-- Every connection that was opened has been closed. -/
def Closed (past : List Moment) : Prop :=
  ∀ world address recovery connection, ⟨world, .connect address recovery, .ok connection⟩ ∈ past →
    ∃ closed code reason, (⟨closed, .close connection.stableId code reason, ()⟩ : Moment) ∈ past

/-- A call sends no frame but those that open a handshake before the selection. -/
def Withholds (self : Runtime) (selection : Selection) (past : List Moment) (call : Call) : Prop :=
  ∀ connection frame limit, call = .send connection frame limit →
    self.Opening frame ∨ Runtime.Chosen past selection

/-- What a candidate guarantees of its calls. -/
def CandidateCall (self : Runtime) (race index : Nat) (past : List Moment) : Call → Prop
  | .claim _ _ => past = []
  | .report _ _ result => Unreported past ∧ Asked past (.claim race index) ∧
    (result.result.isOk = true → Runtime.Chosen past (.race race index)) ∧
      (result.result.isOk = false → Closed past)
  | .send connection frame limit => Unreported past ∧ Asked past (.claim race index) ∧
    Withholds self (.race race index) past (.send connection frame limit)
  | _ => Unreported past ∧ Asked past (.claim race index)

/-- The contract of an attempt, which makes plain calls and waits for its selection. -/
def choosing (self : Runtime) (selection : Selection) : Program.Contract World Call.Reply :=
  ⟨fun past call => (call.plain = true ∨ selection.AwaitedBy call) ∧
    Withholds self selection past call, fun _ _ => True⟩

/-- Calls that open no connection. -/
def Call.opensNone : Call → Bool
  | .connect _ _ => false
  | _ => true

/-- The contract of a phase of an attempt that opens no connection. -/
def calmly (self : Runtime) (selection : Selection) : Program.Contract World Call.Reply :=
  ⟨fun past call => call.opensNone = true ∧ (choosing self selection).guarantee past call,
    fun _ _ => True⟩

theorem plainly_monotone : plainly.Monotone := ⟨fun _ => id, fun _ => id⟩

theorem proper_of_plain {self : Runtime} {operation : Operation} {past : List Moment} {call : Call}
    (plain : call.plain = true) : Proper self operation past call := by
  cases call
  case register | report | observeAuthenticated | recordAuthenticated | savePairing | startRace
    | claim | select | joinNext | shutdownRace | awaitRace | lockGate | unlockGate => cases plain
  all_goals trivial

/-- More calls have been made since, and no session was registered. -/
abbrev Onward (past now : List Moment) : Prop :=
  Trail (fun call => call.toRegister.isNone) past now

variable {now : List Moment}

/-- An operation that has registered nothing on its way has registered nothing. -/
theorem unregistered_of_onward (onward : Onward [] now) : Unregistered now := by
  intro moment member
  exact Option.isNone_iff_eq_none.mp ((onward.mem member).resolve_left List.not_mem_nil)

namespace Runtime

variable {self : Runtime} {operation : Operation} {past : List Moment} {α ε : Type}
  {post : List Moment → α → Prop}

/-- A program that makes plain calls only is a proper part of every operation. -/
theorem properly_of_plainly {program : Program Call.Reply α}
    (ensures : program.Ensures plainly post past) :
    program.Ensures (properly self operation) (fun now value => Onward past now ∧ post now value)
      past := by
  have trailed : program.Ensures plainly (fun now value => post now value ∧ Onward past now) past :=
    ensures.trail fun now call plain => by
      cases call
      case register => cases plain
      all_goals rfl
  have relaxed : program.Ensures (properly self operation) _ past :=
    trailed.relax (fun _ _ => proper_of_plain) fun _ _ => id
  exact relaxed.mono fun now value known => ⟨known.2, known.1⟩

theorem ensures_of_plainly {program : Async Call.Reply ε α}
    (ensures : Async.Ensures plainly post past program) :
    Async.Ensures (properly self operation) (fun now value => Onward past now ∧ post now value) past
      program :=
  (properly_of_plainly ensures).mono fun _ _ known value same => ⟨known.1, known.2 value same⟩

/-! ## Parts that make plain calls only -/

theorem plainly_call {call : Call} (plain : call.plain = true) :
    Async.Ensures plainly (fun _ _ => True) past
      (Async.call call : Async Call.Reply ε call.Reply) :=
  ensures_call plain fun _ _ _ => trivial

theorem plainly_called {call : Call} (plain : call.plain = true) :
    Async.Ensures plainly (fun now reply => ∃ world, ⟨world, call, reply⟩ ∈ now) past
      (Async.call call : Async Call.Reply ε call.Reply) :=
  ensures_call plain fun world reply _ => ⟨world, by simp⟩

variable {selection : Selection}

/-- A handshake opens no connection, and makes plain calls besides waiting for its selection. -/
theorem calmly_of_signs {program : Action α} (signs : Signs self selection post past program) :
    Async.Ensures (calmly self selection) post past program := by
  refine Program.Ensures.relax signs (fun now call made => ?_) fun _ _ => id
  rcases made with (belongs | ⟨_, _, _, rfl, may⟩) | ⟨message, rfl⟩ | ⟨race, index, same, rfl⟩
  · cases call
    case send => cases belongs
    all_goals first | exact ⟨rfl, .inl rfl, nofun⟩ | cases belongs
  · refine ⟨rfl, .inl rfl, fun _ _ _ same => ?_⟩
    cases same
    exact may
  · exact ⟨rfl, .inl rfl, nofun⟩
  · exact ⟨rfl, .inr ⟨race, index, same, rfl⟩, nofun⟩

theorem plainly_of_signs {program : Action α} (alone : ∀ race index, selection ≠ .race race index)
    (signs : Signs self selection post past program) : Async.Ensures plainly post past program := by
  refine Program.Ensures.relax (calmly_of_signs signs) (fun now call made => ?_) fun _ _ => id
  rcases made.2.1 with plain | ⟨race, index, same, -⟩
  · exact plain
  · exact absurd same (alone race index)

/-- `require_paired` makes a plain call. -/
theorem plainly_requirePaired (id : DeviceId) (key : Option DevicePublicKey) :
    Async.Ensures plainly (fun now record => ReadPaired now id record ∧ ∀ expected,
      key = some expected → record.publicKey = expected) past (self.requirePaired id key) :=
  (ensures_requirePaired (fun _ _ => rfl) id key).mono fun _ _ known => ⟨known.1, known.2.2⟩

theorem plainly_withTimeout {program : Action α}
    (grows : ∀ past more value, past ⊆ more → post past value → post more value)
    (ensures : Async.Ensures plainly post past program) :
    Async.Ensures plainly post past (withTimeout program) :=
  ensures_withTimeout plainly_monotone (fun _ => rfl) grows ensures

/-- The facts of a handshake that do not depend on how it was made. -/
theorem onConnection_of_authenticated {connection : Connection} {kind : SessionKind}
    {direction : Direction} {own remote : SessionHello} {peer : SessionPeer} {now : List Moment}
    {session : Session}
    (authenticated : Authenticated self connection kind direction own remote peer past now
      session) :
    OnConnection self connection session := by
  have finished := authenticated.finished
  refine ⟨finished.sameConnection, finished.direct, ?_, ?_⟩
  · rw [finished.samePeer]
    exact authenticated.accepted.bound
  · rw [finished.samePeer]
    exact finished.other

/-- `authenticate_inbound` returns a session the peer has opened. -/
theorem plainly_authenticateInbound (connection : Connection) :
    Async.Ensures plainly (fun _ session => Inbound self connection session) past
      (self.authenticateInbound connection) := by
  refine (plainly_of_signs (by simp) (signs_authenticateInbound connection)).mono
    fun now session known => ?_
  obtain ⟨own, remote, peer, kind, authenticated, -⟩ := known
  refine ⟨onConnection_of_authenticated authenticated, ?_⟩
  rw [authenticated.finished.rank, authenticated.finished.samePeer]
  rfl

theorem found_of_reached (expected : ExpectedPeer) {connection : Connection} {kind : SessionKind}
    {now : List Moment} {session : Session}
    (reached : Reached self connection kind expected.id expected.key past now session) :
    Found self expected kind connection session := by
  obtain ⟨own, remote, peer, authenticated, sameId, sameKey⟩ := reached
  refine ⟨onConnection_of_authenticated authenticated, ?_, ?_, authenticated.sameKind⟩
  · rw [authenticated.finished.samePeer]
    exact sameId
  · rw [authenticated.finished.samePeer]
    exact sameKey

/-- The authentication of a candidate returns a session to the expected peer, once selected. -/
theorem calmly_authenticateExpected (connection : Connection) (expected : ExpectedPeer)
    (kind : SessionKind) (selection : Selection) :
    Async.Ensures (calmly self selection) (fun now session =>
      Found self expected kind connection session ∧ Chosen now selection) past
      (self.authenticateExpected connection expected kind selection) := by
  cases expected with
  | advertised peer =>
    exact (calmly_of_signs (signs_authenticateOutbound connection peer kind selection)).mono
      fun now session known => ⟨found_of_reached (.advertised peer) known.1, known.2⟩
  | paired peer =>
    exact (calmly_of_signs (signs_authenticateOutboundPaired connection peer kind selection)).mono
      fun now session known => ⟨found_of_reached (.paired peer) known.1, known.2⟩

/-! ## Candidates -/

theorem ensures_asDial {contract : Program.Contract World Call.Reply} {program : Action α}
    (ensures : Async.Ensures contract post past program) :
    Async.Ensures contract post past (asDial program) := by
  refine Program.ensures_bind ensures fun now result known value same => ?_
  cases result with
  | error error => cases same
  | ok returned =>
    cases same
    exact known _ rfl

/-- A phase that opens no connection: it fails, or the rest goes on with what it returned. -/
theorem chooses_inPhase {address : SocketAddr} {phase : Phase} {work : DialAction α}
    {next : α → Program Call.Reply CandidateResult} {ends : List Moment → CandidateResult → Prop}
    (grows : ∀ past more value, past ⊆ more → post past value → post more value)
    (first : Async.Ensures (calmly self selection) post past work)
    (second : ∀ now value, Trail Call.opensNone past now → post now value →
      (next value).Ensures (choosing self selection) ends now)
    (failed : ∀ now result, Trail Call.opensNone past now → result.result.isOk = false →
      ends now result) :
    (inPhase address phase work next).Ensures (choosing self selection) ends past := by
  have monotone : (calmly self selection).Monotone :=
    ⟨fun subset made => ⟨made.1, made.2.1, fun connection frame limit same =>
      (made.2.2 connection frame limit same).imp_right (Chosen.mono subset)⟩, fun _ => id⟩
  have timed : (Program.timeout Call.expired (fun expired => expired) work.run).Ensures
      (calmly self selection) (fun now result => (∀ returned, result = some returned →
        ∀ value, returned = .ok value → post now value) ∧ Trail Call.opensNone past now) past :=
    Program.Ensures.trail (Program.ensures_timeout monotone (fun _ => ⟨rfl, .inl rfl, nofun⟩)
      (fun past more _ subset known value same => grows past more value subset (known value same))
      first) fun _ _ => And.left
  have relaxed : (Program.timeout Call.expired (fun expired => expired) work.run).Ensures
      (choosing self selection) _ past := timed.relax (fun _ _ => And.right) fun _ _ => id
  refine Program.ensures_bind relaxed fun now result known => ?_
  obtain ⟨returned, trail⟩ := known
  cases result with
  | none => exact failed now _ trail rfl
  | some result =>
    cases result with
    | error error => exact failed now _ trail rfl
    | ok value => exact second now value trail (returned _ rfl value rfl)

/-- What an attempt ends with: it was selected and has reached the peer on the connection it has
opened, or has closed what it had opened. -/
structure Concluded (self : Runtime) (entry : Race) (race index : Nat) (address : SocketAddr)
    (now : List Moment) (result : CandidateResult) : Prop where
  reached : ∀ session, result.result = .ok session → Chosen now (.race race index) ∧
    ∃ opened connection, ⟨opened, .connect address entry.recovery, .ok connection⟩ ∈ now ∧
      Found self entry.expected entry.kind connection session
  closed : result.result.isOk = false → Closed now

theorem concluded_of_failed {entry : Race} {race index : Nat} {address : SocketAddr}
    {now : List Moment} {result : CandidateResult} (failed : result.result.isOk = false)
    (closed : Closed now) : Concluded self entry race index address now result := by
  refine ⟨fun session same => ?_, fun _ => closed⟩
  rw [same] at failed
  cases failed

/-- The part of an attempt after its connection is opened. -/
theorem chooses_authenticate (entry : Race) (race index : Nat) (address : SocketAddr)
    {world : World} {connection : Connection}
    (opened : ⟨world, .connect address entry.recovery, .ok connection⟩ ∈ past)
    (only : ∀ world address recovery other,
      ⟨world, .connect address recovery, .ok other⟩ ∈ past → other = connection) :
    (do
      let result ← inPhase address .peerAuthentication
        (asDial (self.authenticateExpected connection entry.expected entry.kind (.race race index)))
        fun session => return ⟨address, .peerAuthentication, false, .ok session⟩
      if result.result.isOk then return result
      else
        perform (.close connection.stableId 0 "dial candidate cancelled")
        return result : Program Call.Reply CandidateResult).Ensures
      (choosing self (.race race index)) (Concluded self entry race index address) past := by
  have phase : (inPhase address .peerAuthentication
      (asDial (self.authenticateExpected connection entry.expected entry.kind (.race race index)))
      fun session => return ⟨address, .peerAuthentication, false, .ok session⟩).Ensures
      (choosing self (.race race index)) (fun now result => Trail Call.opensNone past now ∧
        ∀ session, result.result = .ok session → Chosen now (.race race index) ∧
          Found self entry.expected entry.kind connection session) past := by
    refine chooses_inPhase (fun _ _ _ subset known => ⟨known.1, known.2.mono subset⟩)
      (ensures_asDial (calmly_authenticateExpected connection entry.expected entry.kind _))
      (fun now session trail known => ⟨trail, fun other same => ?_⟩)
      fun now result trail failed => ⟨trail, fun session same => ?_⟩
    · cases same
      exact known.symm
    · rw [same] at failed
      cases failed
  refine Program.ensures_bind phase fun now result known => ?_
  obtain ⟨trail, reached⟩ := known
  cases succeeded : result.result.isOk with
  | true =>
    simp only [↓reduceIte]
    refine ⟨fun session same => ?_, fun failed => by simp [succeeded] at failed⟩
    obtain ⟨chosen, found⟩ := reached session same
    exact ⟨chosen, world, connection, trail.grown opened, found⟩
  | false =>
    simp only [Bool.false_eq_true, ↓reduceIte]
    refine ⟨⟨.inl rfl, nofun⟩, fun last _ _ => concluded_of_failed succeeded ?_⟩
    intro world address recovery other member
    rcases List.mem_concat_iff.mp member with earlier | final
    · rw [only world address recovery other (trail.earlier earlier rfl)]
      exact ⟨last, 0, "dial candidate cancelled", by simp⟩
    · cases final

/-- The attempt of a candidate that has opened no connection yet. -/
theorem chooses_attempt (entry : Race) (race index : Nat) (address : SocketAddr)
    (unopened : ∀ moment ∈ past, moment.call.opensNone = true) :
    (self.attempt entry race index address).Ensures (choosing self (.race race index))
      (Concluded self entry race index address) past := by
  have permits : ∀ now, Async.Ensures (calmly self (.race race index)) (fun _ _ => True) now
      (dialAsk .handshakePermit) := fun now =>
    ensures_call ⟨rfl, .inl rfl, nofun⟩ fun _ _ _ => trivial
  have none : ∀ {now}, Trail Call.opensNone past now → ∀ moment ∈ now,
      moment.call.opensNone = true := fun trail moment member =>
    (trail.mem member).elim (unopened moment) id
  have failing : ∀ {middle}, Trail Call.opensNone past middle → ∀ now result,
      Trail Call.opensNone middle now → result.result.isOk = false →
      Concluded self entry race index address now result := by
    intro middle before now result trail failed
    refine concluded_of_failed failed fun world address recovery connection member => ?_
    cases none (before.trans trail) _ member
  refine chooses_inPhase (fun _ _ _ _ => id) (permits _) (fun first _ toFirst _ => ?_)
    (failing (.refl past))
  refine chooses_inPhase (fun _ _ _ _ => id) (permits _) (fun second _ further _ => ?_)
    (failing toFirst)
  have toSecond := toFirst.trans further
  refine ⟨⟨.inl rfl, nofun⟩, fun third tick _ => ?_⟩
  have toThird : Trail Call.opensNone past (second ++ [⟨third, .expired, tick⟩]) :=
    toSecond.trans (trail_concat rfl)
  cases tick with
  | true =>
    exact failing toThird _ ⟨address, .quicHandshake, false, .error .timeout⟩ (.refl _) rfl
  | false =>
    refine ⟨⟨.inl rfl, nofun⟩, fun fourth connected _ => ?_⟩
    -- what was opened is what the last call has opened
    have opened : ∀ world address' recovery connection,
        ⟨world, .connect address' recovery, .ok connection⟩ ∈ second ++
          [⟨third, .expired, false⟩] ++ [⟨fourth, .connect address entry.recovery, connected⟩] →
        connected = .ok connection := by
      intro world address' recovery connection member
      rcases List.mem_concat_iff.mp member with earlier | final
      · cases none toThird _ earlier
      · cases final
        rfl
    cases connected with
    | error failure =>
      refine concluded_of_failed rfl fun world address' recovery connection member => ?_
      cases opened world address' recovery connection member
    | ok connection =>
      refine chooses_authenticate entry race index address
        (List.mem_append_right _ (List.mem_singleton.mpr rfl)) ?_
      intro world address' recovery other member
      cases opened world address' recovery other member
      rfl

/-- The contract of the task of a candidate. -/
def candidly (self : Runtime) (race index : Nat) : Program.Contract World Call.Reply :=
  ⟨fun past call => Proper self (.candidate race index) past call ∧
    CandidateCall self race index past call, fun _ _ => True⟩

/-- The task of a candidate keeps its contract. -/
theorem candidly_candidate (race index : Nat) :
    (self.candidate race index).Ensures (candidly self race index) (fun _ _ => True) [] := by
  have claims : (perform (.claim race index)).Ensures (candidly self race index)
      (fun now reply => ∃ world, now = [⟨world, .claim race index, reply⟩]) [] :=
    ⟨⟨rfl, rfl⟩, fun world reply _ => ⟨world, rfl⟩⟩
  refine Program.ensures_bind claims fun start claimed known => ?_
  obtain ⟨entry, address⟩ := claimed
  obtain ⟨world, rfl⟩ := known
  have attempts : (self.attempt entry race index address).Ensures (candidly self race index)
      (fun now result => (Unreported now ∧ ⟨world, .claim race index, (entry, address)⟩ ∈ now) ∧
        Concluded self entry race index address now result)
      [⟨world, .claim race index, (entry, address)⟩] := by
    refine (chooses_attempt entry race index address (by simp [Call.opensNone])).relax_along _ ?_
      (fun now moment known made => ?_) (fun now call known made => ?_) fun _ _ => id
    · exact ⟨by simp [Unreported], List.mem_singleton.mpr rfl⟩
    · refine ⟨fun other member number place result same => ?_, List.mem_append_left _ known.2⟩
      rcases List.mem_concat_iff.mp member with earlier | rfl
      · exact known.1 other earlier number place result same
      · rw [same] at made
        obtain ⟨plain | ⟨_, _, -, selects⟩, -⟩ := made
        · cases plain
        · cases selects
    · have claimed : Asked now (.claim race index) := ⟨_, known.2, rfl⟩
      obtain ⟨plain | ⟨_, _, same, rfl⟩, withheld⟩ := made
      · refine ⟨proper_of_plain plain, ?_⟩
        cases call <;> first
          | exact ⟨known.1, claimed⟩ | exact ⟨known.1, claimed, withheld⟩ | cases plain
      · cases same
        exact ⟨rfl, known.1, claimed⟩
  refine Program.ensures_bind attempts fun now result known => ?_
  obtain ⟨⟨unreported, member⟩, reached, closed⟩ := known
  refine ⟨⟨⟨rfl, fun session same => ?_⟩, unreported, ⟨_, member, rfl⟩, fun succeeded => ?_, closed⟩,
    fun _ _ _ => trivial⟩
  · obtain ⟨-, opened, connection, connects, found⟩ := reached session same
    exact ⟨world, index, entry, address, opened, entry.recovery, connection, member, connects,
      found⟩
  · cases outcome : result.result with
    | error error => simp [outcome, Except.isOk, Except.toBool] at succeeded
    | ok session => exact (reached session outcome).1

/-! ## Dials -/

end Runtime

variable {expected : ExpectedPeer} {kind : SessionKind}

theorem Dials.key {past : List Moment} {operation : Operation}
    (dials : Dials past operation expected kind) :
    operation.dialKey.isSome = true := by
  cases dials <;> rfl

theorem Dials.mono {past : List Moment} {operation : Operation} (subset : past ⊆ now)
    (dials : Dials past operation expected kind) :
    Dials now operation expected kind := by
  cases dials with
  | connect peer kind => exact .connect peer kind
  | remembered id kind record read => exact .remembered id kind record (read.mono subset)
  | pairedAt id addresses kind record read =>
    exact .pairedAt id addresses kind record (read.mono subset)

theorem Remembers.mono {self : Runtime} {past : List Moment} {operation : Operation}
    {session : Session} (subset : past ⊆ now) (remembers : Remembers self past operation session) :
    Remembers self now operation session := by
  cases remembers with
  | incoming world connection session opened inbound =>
    exact .incoming world connection session (subset opened) inbound
  | dialled operation expected kind world session registered sent dials registers =>
    exact .dialled _ expected kind world session _ sent (dials.mono subset) (subset registers)
  | confirmed operation session confirms kind => exact .confirmed operation session confirms kind

theorem Joined.mono {past : List Moment} {session : Session} (subset : past ⊆ now)
    (joined : Joined past expected kind session) :
    Joined now expected kind session := by
  obtain ⟨started, candidates, recovery, race, world, result, starts, joins, same⟩ := joined
  exact ⟨started, candidates, recovery, race, world, result, subset starts, subset joins, same⟩

/-- The session was returned by a registration. -/
def Returned (past : List Moment) (registered : Session) : Prop :=
  ∃ world session publish sent, ⟨world, .register session publish, (.ok registered, sent)⟩ ∈ past

theorem Returned.mono {past : List Moment} {registered : Session} (subset : past ⊆ now)
    (returned : Returned past registered) : Returned now registered := by
  obtain ⟨world, session, publish, sent, member⟩ := returned
  exact ⟨world, session, publish, sent, subset member⟩

/-- The session was found active or returned by a registration. -/
def Yielded (past : List Moment) (id : DeviceId) (kind : SessionKind) (session : Session) : Prop :=
  (∃ world, ⟨world, .active id kind, some session⟩ ∈ past) ∨ Returned past session

theorem Yielded.mono {past : List Moment} {id : DeviceId} {session : Session} (subset : past ⊆ now)
    (yielded : Yielded past id kind session) :
    Yielded now id kind session := by
  rcases yielded with ⟨world, member⟩ | returned
  · exact Or.inl ⟨world, subset member⟩
  · exact Or.inr (returned.mono subset)

namespace Runtime

variable {self : Runtime} {operation : Operation} {past : List Moment} {α ε : Type}
  {post : List Moment → α → Prop}

variable {session : Session}

/-- Remembering a session that may be remembered. -/
theorem ensures_rememberAuthenticatedSession (source : EndpointSource)
    (remembers : Remembers self past operation session) :
    Async.Ensures (properly self operation) (fun now _ => Onward past now) past
      (self.rememberAuthenticatedSession session source) := by
  refine ensures_bind (ensures_of_plainly (plainly_call rfl)) fun first now known => ?_
  have observes : Async.Ensures (properly self operation) (fun later _ => Onward first later) first
      (ask (.observeAuthenticated (sessionAdvertisement session now))) := by
    exact ensures_call ⟨session, now, rfl, remembers.mono known.1.grown⟩ fun world reply _ =>
      trail_concat rfl
  refine ensures_bind observes fun second _ observed => ?_
  refine ensures_bind (ensures_of_plainly (ensures_result (plainly_requirePaired _ _)))
    fun third paired checked => ?_
  have since := (known.1.trans observed).trans checked.1
  split
  · exact ensures_pure since
  · have records : Async.Ensures (properly self operation) (fun later _ => Onward third later) third
        (ask (.recordAuthenticated session.peer.deviceId (dialAddress session)
          session.peer.certificateSha256 source)) :=
      ensures_call ⟨session, rfl, remembers.mono since.grown⟩ fun world reply _ =>
        trail_concat rfl
    exact ensures_bind records fun _ _ recorded => ensures_pure (since.trans recorded)

theorem ensures_dialCall {call : Call} (kind : call.ofDials = true)
    (dials : operation.dialKey.isSome = true) :
    Async.Ensures (properly self operation) (fun now reply => Onward past now ∧
      ∃ world, ⟨world, call, reply⟩ ∈ now) past
      (Async.call call : Async Call.Reply ε call.Reply) := by
  refine ensures_call ?_ fun world reply _ => ⟨trail_concat ?_, world, by simp⟩
  · cases call <;> first | exact dials | cases kind
  · cases call <;> first | rfl | cases kind

variable {expected : ExpectedPeer} {kind : SessionKind}

/-- What a race does with its winner. -/
theorem ensures_registerWinner (dials : Dials past operation expected kind)
    (joined : Joined past expected kind session) (race : Nat) (source : EndpointSource) :
    Async.Ensures (properly self operation) Returned past
      (self.registerWinner race session source) := by
  refine ensures_bind (ensures_dialCall rfl dials.key) fun aborted _ shut => ?_
  refine ensures_bind (ensures_dialCall rfl dials.key) fun first _ known => ?_
  have grown := (shut.1.trans known.1).grown
  have registers : Async.Ensures (properly self operation) (fun now reply => first ⊆ now ∧
      ∃ world, ⟨world, .register session .never, reply⟩ ∈ now) first
      (dialAsk (.register session .never)) :=
    ensures_call (.dialled operation expected kind session (dials.mono grown)
      (joined.mono grown)) fun world reply _ =>
        ⟨List.subset_append_left _ _, world, by simp⟩
  refine ensures_bind registers fun second reply ⟨further, world, member⟩ => ?_
  obtain ⟨result, sent⟩ := reply
  cases result with
  | error error =>
    exact ensures_bind (ensures_of_plainly (plainly_call rfl)) fun _ _ _ =>
      ensures_throw _
  | ok registered =>
    have remembers : Remembers self second operation registered :=
      .dialled operation expected kind world session registered sent
        (dials.mono fun _ inside => further (grown inside)) member
    refine ensures_bind (ensures_asDial
      (ensures_rememberAuthenticatedSession source remembers)) fun now _ onward => ?_
    exact ensures_pure ⟨world, session, .never, sent, onward.grown member⟩

/-- The results of a race. -/
theorem ensures_joinCandidates {race : Nat} {started : World} {candidates : List SocketAddr}
    {recovery : Bool} (source : EndpointSource) (remaining : Nat) (failed : RaceFailures)
    (dials : Dials past operation expected kind)
    (starts : ⟨started, .startRace expected kind candidates recovery, race⟩ ∈ past) :
    Async.Ensures (properly self operation) Returned past
      (self.joinCandidates race expected source remaining failed) := by
  induction remaining generalizing past failed with
  | zero => exact ensures_throw _
  | succ remaining ih =>
    refine ensures_bind (ensures_dialCall rfl dials.key) fun first joined known => ?_
    obtain ⟨onward, world, member⟩ := known
    cases joined with
    | none => exact ensures_throw _
    | some candidate =>
      dsimp only
      cases result : candidate.result with
      | ok session =>
        exact ensures_registerWinner (dials.mono onward.grown) ⟨started, candidates, recovery, race,
          world, candidate, onward.grown starts, member, result⟩ race source
      | error error =>
        have notes : Async.Ensures plainly (fun _ _ => True) first
            (Async.whenever (source = .history) (do
              let _ ← dialAsk (.recordFailure expected.id candidate.address)
              return)) :=
          ensures_whenever (fun _ => ensures_bind (plainly_call rfl) fun _ _ _ =>
            ensures_pure trivial) fun _ => trivial
        refine ensures_bind (ensures_of_plainly notes) fun second _ noted => ?_
        have further := onward.trans noted.1
        exact ih _ (dials.mono further.grown) (further.grown starts)

/-- `race_endpoints_on` makes proper calls. -/
theorem ensures_raceEndpointsOn (dials : Dials past operation expected kind)
    (addresses : List SocketAddr) (source : EndpointSource) (recovery : Bool) :
    Async.Ensures (properly self operation) Returned past
      (self.raceEndpointsOn addresses expected kind source recovery) := by
  refine ensures_bind (ensures_of_plainly ensures_passed) fun first _ checked => ?_
  refine ensures_bind (ensures_dialCall rfl dials.key) fun second race known => ?_
  obtain ⟨onward, started, member⟩ := known
  exact ensures_joinCandidates source _ _ (dials.mono (checked.1.trans onward).grown) member

/-- A race, and another one from a fresh source port. -/
theorem ensures_raceEndpoints (dials : Dials past operation expected kind)
    (addresses : List SocketAddr) (source : EndpointSource) :
    Async.Ensures (properly self operation) Returned past
      (self.raceEndpoints addresses expected kind source) := by
  refine Program.ensures_bind (Program.Ensures.since
    (ensures_raceEndpointsOn dials addresses source false)) fun first result known => ?_
  obtain ⟨returned, grown⟩ := known
  cases result with
  | ok session =>
    intro value same
    cases same
    exact returned session rfl
  | error failure =>
    obtain ⟨error, retrySourcePort⟩ := failure
    dsimp only
    split
    · intro value same
      cases same
    · have recovers : (perform .recoveryEndpoint).Ensures (properly self operation)
          (fun now _ => first ⊆ now) first :=
        ⟨trivial, fun _ _ _ => List.subset_append_left _ _⟩
      refine Program.ensures_bind recovers fun second recovered further => ?_
      cases recovered with
      | error error =>
        intro value same
        cases same
      | ok _ =>
        have again := dials.mono fun _ inside => further (grown.subset inside)
        refine Program.ensures_bind (ensures_raceEndpointsOn again addresses source true)
          fun _ result known value same => ?_
        cases result with
        | error failure => cases same
        | ok session =>
          cases same
          exact known _ rfl

/-- What is done under a dial gate. -/
theorem ensures_withDialGate {key : SessionKey} {program : Action α}
    (dials : operation.dialKey.isSome = true)
    (grows : ∀ past more value, past ⊆ more → post past value → post more value)
    (ensures : ∀ now, Onward past now → Async.Ensures (properly self operation) post now program) :
    Async.Ensures (properly self operation) post past (withDialGate key program) := by
  refine ensures_bind (ensures_of_plainly (plainly_call rfl)) fun named gate found => ?_
  refine ensures_bind (ensures_dialCall rfl dials) fun first _ acquired => ?_
  refine ensures_bind (ensures_result (ensures first (found.1.trans acquired.1)))
    fun second result known => ?_
  refine ensures_bind (ensures_dialCall rfl dials) fun third _ released => ?_
  exact ensures_ofExcept fun value same =>
    grows _ _ value released.1.grown (known value same)

theorem ensures_activeOr {id : DeviceId} {dial : Action Session}
    (ensures : ∀ now, Onward past now → Async.Ensures (properly self operation) Returned now dial) :
    Async.Ensures (properly self operation) (fun now => Yielded now id kind) past
      (activeOr id kind dial) := by
  refine ensures_bind (ensures_of_plainly (plainly_called rfl)) fun first active known => ?_
  obtain ⟨onward, world, member⟩ := known
  cases active with
  | some session => exact ensures_pure (Or.inl ⟨world, member⟩)
  | none => exact (ensures first onward).mono fun _ _ => Or.inr

theorem ensures_dial {id : DeviceId} {dial : Action Session}
    (dials : operation.dialKey.isSome = true)
    (ensures : ∀ now, Onward past now → Async.Ensures (properly self operation) Returned now dial) :
    Async.Ensures (properly self operation) (fun now => Yielded now id kind) past
      (withDialGate (id, kind) (activeOr id kind dial)) :=
  ensures_withDialGate dials (fun _ _ _ => Yielded.mono) fun _ onward =>
    ensures_activeOr fun now further => ensures now (onward.trans further)

/-- `connect`. -/
theorem ensures_connect (peer : PeerAdvertisement) (kind : SessionKind) :
    Async.Ensures (properly self (.connect peer kind)) (fun now session =>
      (kind.openToUnpaired = true ∨ CheckedPaired now peer.deviceId peer.publicKey) ∧
        Yielded now peer.deviceId kind session) [] (self.connect peer kind) := by
  refine ensures_bind (ensures_of_plainly ensures_passed) fun _ _ _ => ?_
  refine ensures_bind (ensures_of_plainly (@plainly_of_signs self _ _ _ .absent _ nofun
    (signs_of_shakes (shakes_requireTrust kind _ _)))) fun first _ trusted => ?_
  refine (Program.Ensures.since (ensures_dial rfl
    fun now _ => ensures_raceEndpoints (.connect peer kind)
    _ _)).mono fun now result known session same => ?_
  exact ⟨trusted.2.2.imp id (CheckedPaired.mono known.2.subset), known.1 session same⟩

/-- Dialling the remembered endpoints. -/
theorem ensures_dialRemembered {id : DeviceId} {record : PeerRecord}
    (read : ReadPaired past id record) :
    Async.Ensures (properly self (.connectRemembered id kind)) Returned past (do
      let stored ← ask (.endpoints id)
      let endpoints ← Async.ofExcept stored
      Async.refuse endpoints.isEmpty (.connect "peer has no remembered authenticated endpoint")
      self.raceEndpoints (endpoints.map RememberedEndpoint.address) (.paired record) kind
        .history) := by
  refine ensures_bind (ensures_of_plainly (plainly_call rfl)) fun first stored asked => ?_
  refine ensures_bind (ensures_of_plainly ensures_succeeded) fun second endpoints got => ?_
  refine ensures_bind (ensures_of_plainly ensures_passed) fun third _ checked => ?_
  have since := (asked.1.trans got.1).trans checked.1
  exact ensures_raceEndpoints (.remembered id kind record (read.mono since.grown)) _ _

/-- `connect_remembered`. -/
theorem ensures_connectRemembered (id : DeviceId) (kind : SessionKind) :
    Async.Ensures (properly self (.connectRemembered id kind)) (fun now session =>
      (∃ record, ReadPaired now id record) ∧ Yielded now id kind session) []
      (self.connectRemembered id kind) := by
  refine ensures_bind (ensures_of_plainly (plainly_requirePaired id none))
    fun first record known => ?_
  have read := known.2.1
  refine (Program.Ensures.since (ensures_dial rfl fun now onward =>
    ensures_dialRemembered (read.mono onward.grown))).mono fun now result known session same => ?_
  exact ⟨⟨record, read.mono known.2.subset⟩, known.1 session same⟩

/-- `connect_paired_at`. -/
theorem ensures_connectPairedAt (id : DeviceId) (addresses : List SocketAddr) (kind : SessionKind) :
    Async.Ensures (properly self (.connectPairedAt id addresses kind)) (fun now session =>
      (∃ record, ReadPaired now id record) ∧ Yielded now id kind session) []
      (self.connectPairedAt id addresses kind) := by
  refine ensures_bind (ensures_of_plainly (plainly_requirePaired id none))
    fun first record known => ?_
  refine ensures_bind (ensures_of_plainly ensures_passed) fun second _ few => ?_
  refine ensures_bind (ensures_of_plainly ensures_passed) fun third _ some => ?_
  have read := known.2.1.mono (few.1.trans some.1).grown
  refine (Program.Ensures.since (ensures_dial rfl fun now onward =>
    ensures_raceEndpoints (.pairedAt id addresses kind record (read.mono onward.grown)) _ _)).mono
    fun now result known session same => ?_
  exact ⟨⟨record, read.mono known.2.subset⟩, known.1 session same⟩

/-! ## Relays and incoming connections -/

theorem plainly_relayTunnel (server : Bool) :
    Async.Ensures plainly (fun _ _ => True) past (relayTunnel server) := by
  refine ensures_bind (plainly_call rfl) fun _ _ _ => ?_
  refine ensures_bind ensures_succeeded fun _ _ _ => ?_
  refine ensures_bind (plainly_call rfl) fun _ _ _ => ?_
  refine ensures_bind ensures_passed fun _ _ _ => ?_
  exact ensures_pure trivial

/-- A session through a tunnel is registered with its tunnel. -/
theorem ensures_registerInputRelay {tunnel : RelayTunnel} {publish : Publish}
    (registers : Registers self past operation { session with relayTunnel := some tunnel }
      publish) :
    Async.Ensures (properly self operation) Returned past
      (registerInputRelay session tunnel publish) := by
  have asks : Async.Ensures (properly self operation) (fun now reply => ∃ world,
      ⟨world, .register { session with relayTunnel := some tunnel } publish, reply⟩ ∈ now) past
      (ask (.register { session with relayTunnel := some tunnel } publish)) :=
    ensures_call registers fun world reply _ => ⟨world, by simp⟩
  refine ensures_bind asks fun first reply ⟨world, member⟩ => ?_
  obtain ⟨result, sent⟩ := reply
  refine ensures_bind (ensures_of_plainly ensures_succeeded) fun second registered known => ?_
  obtain ⟨onward, same⟩ := known
  cases same
  refine ensures_bind (ensures_of_plainly (ensures_whenever
    (fun _ => plainly_call rfl) fun _ => trivial)) fun third _ spawned => ?_
  exact ensures_pure ⟨world, _, publish, sent, (onward.trans spawned.1).grown member⟩

/-- A connection through a tunnel, and the session on it. -/
theorem plainly_through {tunnel : RelayTunnel} {server : Bool} {next : Connection → Action Session}
    {facts : Connection → Session → Prop}
    (ensures : ∀ now connection, Async.Ensures plainly (fun _ => facts connection) now
      (next connection)) :
    Async.Ensures plainly (fun now session => ∃ world connection,
      ⟨world, .throughTunnel tunnel server, .ok connection⟩ ∈ now ∧ facts connection session) past
      (withTimeout (do
        let connected ← ask (.throughTunnel tunnel server)
        let connection ← Async.ofExcept connected
        next connection)) := by
  refine plainly_withTimeout (fun past more session subset known => ?_) ?_
  · obtain ⟨world, connection, member, holds⟩ := known
    exact ⟨world, connection, subset member, holds⟩
  · refine ensures_bind (plainly_called rfl) fun first connected ⟨world, member⟩ => ?_
    refine ensures_bind_since ensures_succeeded fun second connection grown same => ?_
    rw [same] at member
    refine (Program.Ensures.since (ensures second connection)).mono fun now result known session
      returned => ?_
    exact ⟨world, connection, known.2.subset (grown.subset member), known.1 session returned⟩

/-- `connect_input_relay`. -/
theorem ensures_connectInputRelay (target : DeviceId) :
    Async.Ensures (properly self (.connectInputRelay target)) (fun now session =>
      (∃ record, ReadPaired now target record) ∧ Yielded now target .realtimeInput session) []
      (self.connectInputRelay target) := by
  refine ensures_bind (ensures_of_plainly (plainly_requirePaired target none))
    fun first record known => ?_
  obtain ⟨start, read, -⟩ := known
  refine (Program.Ensures.since (ensures_activeOr fun second onward => ?_)).mono
    fun now result known session same => ⟨⟨record, read.mono known.2.subset⟩, known.1 session same⟩
  refine ensures_bind (ensures_of_plainly (plainly_relayTunnel false)) fun third tunnel made => ?_
  refine ensures_bind (ensures_of_plainly (plainly_through fun now connection =>
    (plainly_of_signs (by simp) (signs_authenticateOutboundPaired connection record .realtimeInput
      .own)).mono fun _ _ known => found_of_reached (.paired record) known.1))
    fun fourth session opened => ?_
  obtain ⟨last, world, connection, member, found⟩ := opened
  have since := (onward.trans made.1).trans last
  refine ensures_registerInputRelay (.relayed target record world tunnel connection session
    (read.mono since.grown) member found ?_)
  exact unregistered_of_onward (start.trans since)

/-- The check of the source either fails or finds the expected kind. -/
theorem plainly_requireRelaySource (session : Session) (expected : PeerRecord) :
    Async.Ensures plainly (fun _ _ => session.kind = .realtimeInput) past
      (requireRelaySource session expected) := by
  unfold requireRelaySource
  split
  · exact ensures_bind (plainly_call rfl) fun _ _ _ => ensures_throw _
  · rename_i matched
    refine ensures_pure ?_
    simp only [Bool.or_eq_true, bne_iff_ne, ne_eq, not_or, not_not] at matched
    exact matched.1.1

theorem plainly_require (session : Session) (capability : CapabilityId) :
    Async.Ensures plainly (fun _ _ => True) past (require session capability) :=
  ensures_bind (plainly_call rfl) fun _ _ _ => ensures_ofExcept fun _ _ => trivial

/-- `accept_input_relay`. -/
theorem ensures_acceptInputRelay (source : DeviceId) :
    Async.Ensures (properly self (.acceptInputRelay source)) (fun _ _ => True) []
      (self.acceptInputRelay source) := by
  refine ensures_bind (ensures_of_plainly (plainly_requirePaired source none))
    fun first expected start => ?_
  refine ensures_bind (ensures_of_plainly (plainly_relayTunnel true)) fun second tunnel made => ?_
  have authenticates : ∀ now connection, Async.Ensures plainly (fun _ session =>
      Inbound self connection session ∧ session.kind = .realtimeInput) now (do
        let session ← self.authenticateInbound connection
        requireRelaySource session expected
        let _ ← require session .crossScreenInject
        return session) := by
    intro now connection
    refine ensures_bind (plainly_authenticateInbound connection) fun _ session inbound => ?_
    refine ensures_bind (plainly_requireRelaySource session expected) fun _ _ kind => ?_
    refine ensures_bind (plainly_require session .crossScreenInject) fun _ _ _ => ?_
    exact ensures_pure ⟨inbound, kind⟩
  refine ensures_bind (ensures_of_plainly (plainly_through authenticates))
    fun third session opened => ?_
  obtain ⟨last, world, connection, member, inbound, kind⟩ := opened
  refine (ensures_registerInputRelay (.accepted source world tunnel connection session member
    inbound kind ?_)).mono fun _ _ _ => trivial
  exact unregistered_of_onward ((start.1.trans made.1).trans last)

/-- The task of an incoming connection. -/
theorem ensures_acceptIncoming :
    Async.Ensures (properly self .acceptIncoming) (fun _ _ => True) [] self.acceptIncoming := by
  refine ensures_bind (ensures_of_plainly (plainly_call rfl)) fun first permitted start => ?_
  refine ensures_whenever (fun _ => ?_) fun _ => trivial
  have connects : Async.Ensures plainly (fun now connection => ∃ world,
      ⟨world, .incoming, .ok connection⟩ ∈ now) first (withTimeout (do
        let connected ← ask .incoming
        Async.ofExcept connected)) := by
    refine plainly_withTimeout (fun _ _ _ subset ⟨world, member⟩ => ⟨world, subset member⟩) ?_
    refine ensures_bind (plainly_called rfl) fun now connected asked => ?_
    refine ensures_ofExcept fun connection same => ?_
    rw [same] at asked
    exact asked
  refine ensures_bind (ensures_of_plainly connects) fun second connection opened => ?_
  obtain ⟨toSecond, world, member⟩ := opened
  refine ensures_bind (ensures_of_plainly (plainly_withTimeout (fun _ _ _ _ => id)
    (plainly_authenticateInbound connection))) fun third inbound authenticated => ?_
  obtain ⟨toThird, facts⟩ := authenticated
  refine ensures_bind (ensures_rememberAuthenticatedSession .inbound
    (.incoming world connection inbound (toThird.grown member) facts)) fun fourth _ toFourth => ?_
  split
  · exact (ensures_of_plainly (plainly_call rfl)).mono fun _ _ _ => trivial
  · have first : Unregistered fourth :=
      unregistered_of_onward (((start.1.trans toSecond).trans toThird).trans toFourth)
    have registers : Async.Ensures (properly self .acceptIncoming) (fun _ _ => True) fourth
        (ask (.register inbound .ifSame)) :=
      ensures_call (.incoming world connection inbound
        (toFourth.grown (toThird.grown member)) facts first) fun _ _ _ => trivial
    refine ensures_bind registers fun _ reply _ => ?_
    refine ensures_bind (ensures_of_plainly ensures_succeeded) fun _ session _ => ?_
    exact (ensures_of_plainly (ensures_whenever (fun _ => plainly_call rfl)
      fun _ => trivial)).mono fun _ _ _ => trivial

/-! ## Trust -/

/-- `confirm_pairing_with_grants`. -/
theorem ensures_confirmPairing (confirms : operation.confirms = some session)
    (grants : List Grant) :
    Async.Ensures (properly self operation) (fun _ _ => True) past
      (self.confirmPairingWithGrants session grants) := by
  refine ensures_bind (ensures_of_plainly ensures_passed) fun _ _ pairing => ?_
  have kind : session.kind = .pairing := by simpa using pairing.2
  refine ensures_bind (ensures_of_plainly ensures_passed) fun _ _ _ => ?_
  refine ensures_bind (ensures_of_plainly ensures_succeeded) fun _ _ _ => ?_
  refine ensures_bind (ensures_of_plainly (plainly_call rfl)) fun _ now _ => ?_
  refine ensures_bind (ensures_of_plainly (plainly_call rfl)) fun _ reply _ => ?_
  refine ensures_bind (ensures_of_plainly ensures_succeeded) fun third existing _ => ?_
  have saves : Async.Ensures (properly self operation) (fun _ _ => True) third
      (ask (.savePairing (pairingRecord session now) (mergeGrants existing grants))) :=
    ensures_call ⟨session, now, confirms, kind, rfl⟩ fun _ _ _ => trivial
  refine ensures_bind saves fun _ saved _ => ?_
  refine ensures_bind (ensures_of_plainly ensures_succeeded) fun _ _ _ => ?_
  refine ensures_bind (ensures_rememberAuthenticatedSession .inbound
    (.confirmed operation session confirms kind)) fun _ _ _ => ?_
  exact (ensures_of_plainly (plainly_call rfl)).mono fun _ _ _ => trivial

/-- `complete_pairing`. -/
theorem ensures_completePairing (pending : PendingPairing) :
    Async.Ensures (properly self (.completePairing pending)) (fun _ _ => True) []
      (self.completePairing pending) := by
  have receives : Async.Ensures plainly (fun _ _ => True) [] (withTimeout (do
      let frame ← ask (.receive pending.session.conn self.platform.maxControlFrameSize)
      Async.ofExcept frame)) :=
    plainly_withTimeout (fun _ _ _ _ => id) (ensures_bind (plainly_call rfl) fun _ _ _ =>
      ensures_ofExcept fun _ _ => trivial)
  refine ensures_bind (ensures_of_plainly receives) fun _ bytes _ => ?_
  refine ensures_bind (ensures_of_plainly ensures_succeeded) fun _ response _ => ?_
  refine ensures_bind (ensures_of_plainly ensures_succeeded) fun _ result _ => ?_
  split
  · refine ensures_bind (ensures_of_plainly (plainly_call rfl)) fun _ _ _ => ?_
    exact ensures_throw _
  · refine ensures_bind (ensures_of_plainly (ensures_approveGrants (fun _ => rfl) pending _ []))
      fun _ granted _ => ?_
    refine ensures_bind (ensures_confirmPairing rfl granted) fun _ _ _ => ?_
    refine ensures_bind (ensures_of_plainly (plainly_call rfl)) fun _ _ _ => ?_
    exact ensures_pure trivial

/-- `forget` makes plain calls. -/
theorem plainly_forget (id : DeviceId) :
    Async.Ensures plainly (fun _ _ => True) past (self.forget id) := by
  refine ensures_bind (plainly_call rfl) fun _ reply _ => ?_
  refine ensures_bind ensures_succeeded fun _ forgotten _ => ?_
  refine ensures_bind (plainly_call rfl) fun _ cleared _ => ?_
  refine ensures_bind ensures_succeeded fun _ _ _ => ?_
  refine ensures_bind (plainly_call rfl) fun _ _ _ => ?_
  refine ensures_bind (plainly_call rfl) fun _ _ _ => ?_
  exact ensures_pure trivial

/-- `set_peer_auto_connect` makes plain calls. -/
theorem plainly_setPeerAutoConnect (id : DeviceId) (enabled : Bool) :
    Async.Ensures plainly (fun _ _ => True) past (self.setPeerAutoConnect id enabled) := by
  refine ensures_bind (plainly_call rfl) fun _ reply _ => ?_
  refine ensures_bind ensures_succeeded fun _ stored _ => ?_
  cases stored with
  | none => exact ensures_pure trivial
  | some peer =>
    dsimp only
    split
    · exact ensures_pure trivial
    · refine ensures_bind (plainly_call rfl) fun _ now _ => ?_
      refine ensures_bind (plainly_call rfl) fun _ saved _ => ?_
      refine ensures_bind ensures_succeeded fun _ _ _ => ?_
      exact ensures_pure trivial

/-- `grant` makes plain calls. -/
theorem plainly_grant (grant : Grant) :
    Async.Ensures plainly (fun _ _ => True) past (self.grant grant) := by
  refine ensures_bind ensures_succeeded fun _ _ _ => ?_
  refine ensures_bind (plainly_call rfl) fun _ saved _ => ?_
  refine ensures_bind ensures_succeeded fun _ _ _ => ?_
  split
  · exact plainly_call rfl
  · exact ensures_bind (plainly_call rfl) fun _ _ _ => ensures_pure trivial

/-- `revoke` makes plain calls. -/
theorem plainly_revoke (id : DeviceId) (capability : CapabilityId) (direction : GrantDirection) :
    Async.Ensures plainly (fun _ _ => True) past (self.revoke id capability direction) := by
  refine ensures_bind (plainly_call rfl) fun _ reply _ => ?_
  refine ensures_bind ensures_succeeded fun _ revoked _ => ?_
  split
  · exact ensures_bind (plainly_call rfl) fun _ _ _ => ensures_pure trivial
  · exact ensures_pure trivial

/-- What an operation that returned a session has seen. -/
def Yields : Operation → List Moment → Outcome → Prop
  | .connect peer kind, past, .session (.ok session) =>
    (kind.openToUnpaired = true ∨ CheckedPaired past peer.deviceId peer.publicKey) ∧
      Yielded past peer.deviceId kind session
  | .connectRemembered id kind, past, .session (.ok session) =>
    (∃ record, ReadPaired past id record) ∧ Yielded past id kind session
  | .connectPairedAt id _ kind, past, .session (.ok session) =>
    (∃ record, ReadPaired past id record) ∧ Yielded past id kind session
  | .connectInputRelay target, past, .session (.ok session) =>
    (∃ record, ReadPaired past target record) ∧ Yielded past target .realtimeInput session
  | _, _, _ => True

theorem unpromised {program : Async Call.Reply ε α} {outcome : Except ε α → Outcome}
    (nothing : ∀ past result, Yields operation past (outcome result))
    (ensures : Async.Ensures (properly self operation) (fun _ _ => True) past program) :
    (outcome <$> program.run).Ensures (properly self operation) (Yields operation) past :=
  Program.ensures_map (Program.Ensures.mono ensures fun now result _ => nothing now result)

theorem promised {program : Action Session}
    (failed : ∀ past error, Yields operation past (.session (.error error)))
    (ensures : Async.Ensures (properly self operation) (fun now session =>
      Yields operation now (.session (.ok session))) past program) :
    (Outcome.session <$> program.run).Ensures (properly self operation) (Yields operation)
      past := by
  refine Program.ensures_map (Program.Ensures.mono ensures fun now result known => ?_)
  cases result with
  | error error => exact failed now error
  | ok session => exact known session rfl

theorem unpromised_plainly {program : Action α} {outcome : Except NetworkError α → Outcome}
    (nothing : ∀ past result, Yields operation past (outcome result))
    (ensures : Async.Ensures plainly (fun _ _ => True) past program) :
    (outcome <$> program.run).Ensures (properly self operation) (Yields operation) past :=
  unpromised nothing ((ensures_of_plainly ensures).mono fun _ _ _ => trivial)

/-- How the operations of the runtime conduct themselves. -/
def conduct (self : Runtime) : Conduct self.system where
  guarantee := Proper self
  post := Yields
  programs operation := by
    cases operation with
    | connect peer kind => exact promised (fun _ _ => trivial) (ensures_connect peer kind)
    | connectRemembered id kind =>
      exact promised (fun _ _ => trivial) (ensures_connectRemembered id kind)
    | connectPairedAt id addresses kind =>
      exact promised (fun _ _ => trivial) (ensures_connectPairedAt id addresses kind)
    | connectInputRelay target =>
      exact promised (fun _ _ => trivial) (ensures_connectInputRelay target)
    | acceptInputRelay source =>
      exact unpromised (fun _ _ => trivial) (ensures_acceptInputRelay source)
    | acceptIncoming => exact unpromised (fun _ _ => trivial) ensures_acceptIncoming
    | candidate race index =>
      exact Program.ensures_map ((candidly_candidate race index).relax (fun _ _ => And.left)
        fun _ _ => id)
    | cleanup session =>
      refine unpromised_plainly (fun _ _ => trivial) ?_
      exact ensures_bind (plainly_call rfl) fun _ _ _ => plainly_call rfl
    | completePairing pending =>
      exact unpromised (fun _ _ => trivial) (ensures_completePairing pending)
    | confirmPairing session grants =>
      exact unpromised (fun _ _ => trivial) (ensures_confirmPairing rfl grants)
    | forget id => exact unpromised_plainly (fun _ _ => trivial) (plainly_forget id)
    | disconnect id reason => exact ⟨trivial, fun _ _ _ => trivial⟩
    | setPeerAutoConnect id enabled =>
      exact unpromised_plainly (fun _ _ => trivial) (plainly_setPeerAutoConnect id enabled)
    | grant grant => exact unpromised_plainly (fun _ _ => trivial) (plainly_grant grant)
    | revoke id capability direction =>
      exact unpromised_plainly (fun _ _ => trivial) (plainly_revoke id capability direction)

end Runtime

end ArcRelay
