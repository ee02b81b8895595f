import ArcRelay.Verif.Admission
import ArcRelay.Verif.Forgetting

/-!
# A hidden device and strangers

A device that is not discoverable turns away an unpaired device before it has sent
anything, if the first frame is no acceptable hello or asks for a kind that is open to
unpaired devices. A device that asks for another kind is turned away as well, but only
after this device has sent its own hello and its signature.
-/

namespace ArcRelay

open Async

/-- The message that a call sends. -/
def Call.message? : Call → Option Bytes
  | .send _ message _ => some message
  | _ => none

namespace Runtime

/-- The frame that a call has received. -/
def received? : Moment → Option Bytes
  | ⟨_, .receive _ _, .ok frame⟩ => some frame
  | _ => none

/-- A stranger greets a hidden device with a frame: it is the first one that arrives, and whenever
the handshake makes a call the device is not discoverable, and the device that the frame names is
not paired under the key it names. -/
structure Strange (runtime : Runtime) (frame : Bytes) (moments : List Moment) : Prop where
  answered : ∀ moment ∈ moments, Program.Answered runtime.handle moment
  first : ∀ arrived ∈ (moments.filterMap received?).head?, arrived = frame
  hidden : ∀ moment ∈ moments, moment.world.discoverable = false
  /-- The repository does not store the pair of the hello as paired. -/
  unpaired : ∀ {hello kind peer}, runtime.platform.decodeHello frame = .ok hello →
    runtime.platform.validateHello hello (some kind) = .ok peer →
      ∀ moment ∈ moments, ¬ StoredPaired runtime.platform moment.world.database peer

/-- The frame is no hello, one that is refused, or one for a kind that is open to unpaired
devices. -/
def TurnsAway (self : Runtime) (frame : Bytes) : Prop :=
  ∀ hello kind peer, self.platform.decodeHello frame = .ok hello →
    self.platform.decodeKind hello.sessionKind = .ok kind →
      self.platform.validateHello hello (some kind) = .ok peer → kind.openToUnpaired = true

variable {self : Runtime} {connection : Connection} {frame : Bytes} {moments past : List Moment}

/-- The contract of programs that send nothing, in a run that makes these calls. -/
abbrev silent (moments : List Moment) : Program.Contract World Call.Reply where
  guarantee _ call := call.message? = none
  rely past moment := past ++ [moment] <+: moments

theorem silent_ask {call : Call} (quiet : call.message? = none) :
    Async.Ensures (silent moments) (fun now reply => ∃ world,
      now = past ++ [⟨world, call, reply⟩] ∧ now <+: moments) past (ask call) :=
  ensures_call quiet fun world _ begun => ⟨world, rfl, begun⟩

theorem not_paired_of_strange (strange : self.Strange frame moments) {peer : SessionPeer}
    {hello : SessionHello} {kind : SessionKind} {world : World}
    (decoded : self.platform.decodeHello frame = .ok hello)
    (validated : self.platform.validateHello hello (some kind) = .ok peer) {record : PeerRecord}
    (member : ⟨world, .peer peer.deviceId, .ok (some record)⟩ ∈ moments)
    (paired : record.trustState = .paired) : record.publicKey ≠ peer.publicKey := by
  intro key
  obtain ⟨moment, present, -, stored⟩ := storedPaired_of_checked strange.answered
    ⟨record, ⟨paired, world, member⟩, key⟩
  exact strange.unpaired decoded validated moment present stored

theorem discoverable_of_strange (strange : self.Strange frame moments) {world : World}
    {discoverable : Bool} (member : ⟨world, .isDiscoverable, discoverable⟩ ∈ moments) :
    discoverable = false := by
  obtain ⟨proposal, after, replied⟩ := strange.answered _ member
  have shown : world.discoverable = discoverable := congrArg Prod.fst (Option.some.inj replied)
  exact shown.symm.trans (strange.hidden _ member)

/-- `authenticate_inbound` sends nothing to a stranger that it turns away, and returns no
session. -/
theorem silent_authenticateInbound (strange : self.Strange frame moments)
    (turnsAway : self.TurnsAway frame) :
    Async.Ensures (silent moments) (fun _ _ => False) [] (self.authenticateInbound connection) := by
  refine ensures_call_bind rfl fun world opened _ => ?_
  refine ensures_ofExcept_bind fun _ _ => ?_
  have reads : Async.Ensures (silent moments)
      (fun _ hello => self.platform.decodeHello frame = .ok hello)
      ([] ++ [⟨world, .acceptStream connection.stableId, opened⟩])
      (receiveMessage connection self.platform.decodeHello) := by
    refine ensures_call_bind rfl fun world reply begun => ?_
    refine ensures_ofExcept_bind fun arrived same => ?_
    refine ensures_ofExcept fun hello decoded => ?_
    subst same
    obtain ⟨later, whole⟩ := begun
    have first : arrived = frame := strange.first arrived (by rw [← whole]; rfl)
    exact first ▸ Except.mapError_eq_ok.mp decoded
  refine ensures_bind reads fun _ hello decoded => ?_
  refine ensures_bind ensures_succeeded fun _ kind named => ?_
  refine ensures_bind ensures_succeeded fun _ peer validated => ?_
  refine ensures_bind (ensures_result (ensures_requirePaired (fun _ _ => rfl) _ _))
    fun _ paired checked => ?_
  refine ensures_bind (silent_ask rfl) fun _ discoverable looked => ?_
  refine ensures_bind ensures_passed fun _ _ passed => ?_
  -- the check cannot have passed: the device is hidden, the peer unpaired and the kind open
  obtain ⟨world, rfl, begun⟩ := looked
  have unpaired : paired.isOk = false := by
    cases paired with
    | error error => rfl
    | ok record =>
      obtain ⟨⟨trusted, -⟩, ⟨before, world, begun⟩, key⟩ := checked record rfl
      have member : ⟨world, .peer peer.deviceId, .ok (some record)⟩ ∈ moments :=
        begun.subset List.mem_concat_self
      exact absurd (key _ rfl) (not_paired_of_strange strange decoded validated member trusted)
  have member : ⟨world, .isDiscoverable, discoverable⟩ ∈ moments :=
    begun.subset List.mem_concat_self
  rw [discoverable_of_strange strange member, unpaired,
    turnsAway _ _ _ decoded named validated] at passed
  cases passed

/-- A hidden device with an empty repository. -/
def hiddenWorld : World := { World.fresh .empty with discoverable := false }

/-- The calls of `authenticate_inbound` up to its own hello, in the world of a hidden device with an
empty repository. -/
def greeting (self : Runtime) (connection : Connection) (frame : Bytes) (kind : SessionKind)
    (peer : SessionPeer) : List Moment :=
  [⟨hiddenWorld, .acceptStream connection.stableId, .ok ()⟩,
    ⟨hiddenWorld, .receive connection.stableId handshakeFrameLimit, .ok frame⟩,
    ⟨hiddenWorld, .peer peer.deviceId, .ok none⟩, ⟨hiddenWorld, .isDiscoverable, false⟩,
    ⟨hiddenWorld, .nonce, Vector.replicate 32 0⟩, ⟨hiddenWorld, .metadata, ⟨"", "", ""⟩⟩,
    ⟨hiddenWorld, .send connection.stableId (self.platform.encodeHello
      (self.helloWith kind (Vector.replicate 32 0) ⟨"", "", ""⟩)) handshakeFrameLimit, .ok ()⟩]

theorem returns_ask (call : Call) (reply : call.Reply) :
    Program.Returns (ask call).run [⟨hiddenWorld, call, reply⟩] (.ok reply) :=
  .cons _ _ _ _ _ _ (.nil _)

/-- To a hello for another kind the device makes these calls. -/
theorem leads_greeting {hello : SessionHello} {kind : SessionKind} {peer : SessionPeer}
    (decoded : self.platform.decodeHello frame = .ok hello)
    (named : self.platform.decodeKind hello.sessionKind = .ok kind)
    (validated : self.platform.validateHello hello (some kind) = .ok peer)
    (restricted : kind.openToUnpaired = false) :
    ∃ rest, Program.Leads (self.authenticateInbound connection).run
      (self.greeting connection frame kind peer) rest := by
  have other : kind ≠ .discoveryProbe := by
    rintro rfl
    cases restricted
  have reads : Program.Returns (receiveMessage connection self.platform.decodeHello).run
      [⟨hiddenWorld, .receive connection.stableId handshakeFrameLimit, .ok frame⟩] (.ok hello) := by
    refine .cons _ _ _ _ _ _ (returns_ofExcept ?_)
    rw [decoded]
    rfl
  have unlimited : Program.Returns (admitProbe kind connection.remoteAddress).run
      ([] : List Moment) (.ok ()) := by
    rw [admitProbe, if_neg other]
    exact .nil _
  have unpaired : Program.Returns (Async.result (self.requirePaired peer.deviceId
      (some peer.publicKey))).run [⟨hiddenWorld, .peer peer.deviceId, .ok none⟩]
      (.ok (.error .unpaired)) := .cons _ _ _ _ _ _ (.nil _)
  have introduces : Program.Returns (self.localHello kind).run
      [⟨hiddenWorld, .nonce, Vector.replicate 32 0⟩, ⟨hiddenWorld, .metadata, ⟨"", "", ""⟩⟩]
      (.ok (self.helloWith kind (Vector.replicate 32 0) ⟨"", "", ""⟩)) :=
    .cons _ _ _ _ _ _ (.cons _ _ _ _ _ _ (.nil _))
  refine leads_bind (returns_ask (.acceptStream _) (.ok ())) ?_
  refine leads_bind (returns_ofExcept rfl) ?_
  refine leads_bind reads ?_
  refine leads_bind (returns_ofExcept named) ?_
  refine leads_bind (returns_ofExcept validated) ?_
  refine leads_bind unpaired ?_
  refine leads_bind (returns_ask .isDiscoverable false) ?_
  refine leads_bind (returns_ofExcept (by rw [restricted]; rfl)) ?_
  refine leads_bind unlimited ?_
  refine leads_bind introduces ?_
  exact ⟨_, .cons _ _ _ _ _ _ (.nil _)⟩

/-- A stranger sends the hello. -/
theorem strange_greeting (self : Runtime) (connection : Connection) (frame : Bytes)
    (kind : SessionKind) (peer : SessionPeer) :
    self.Strange frame (self.greeting connection frame kind peer) where
  answered := by
    intro moment member
    simp only [greeting, List.mem_cons, List.not_mem_nil, or_false] at member
    rcases member with rfl | rfl | rfl | rfl | rfl | rfl | rfl
    · exact ⟨.ok (), _, rfl⟩
    · exact ⟨.ok frame, _, rfl⟩
    · exact ⟨.ok none, _, rfl⟩
    · exact ⟨false, _, rfl⟩
    · exact ⟨Vector.replicate 32 0, _, rfl⟩
    · exact ⟨⟨"", "", ""⟩, _, rfl⟩
    · exact ⟨.ok (), _, rfl⟩
  first := by
    intro arrived same
    exact (Option.some.inj same).symm
  hidden := by
    intro moment member
    simp only [greeting, List.mem_cons, List.not_mem_nil, or_false] at member
    rcases member with rfl | rfl | rfl | rfl | rfl | rfl | rfl <;> rfl
  unpaired := by
    rintro hello kind' peer' - - moment member ⟨record, stored, -⟩
    simp only [greeting, List.mem_cons, List.not_mem_nil, or_false] at member
    rcases member with rfl | rfl | rfl | rfl | rfl | rfl | rfl <;> cases stored

/-- A hidden device sends nothing at any moment of a handshake with a stranger, which ends with an
error if it ends, exactly if the first frame is no hello that is accepted or one for a kind that is
open to unpaired devices. -/
theorem hidden_device_silent (self : Runtime) (connection : Connection) (frame : Bytes) :
    (∀ (moments : List Moment) (rest : Program Call.Reply (Except NetworkError Session)),
      Program.Leads (self.authenticateInbound connection).run moments rest →
      self.Strange frame moments →
        (∀ moment ∈ moments, moment.call.message? = none) ∧
          ∀ result, rest = .done result → ∃ error, result = .error error) ↔
    self.TurnsAway frame := by
  constructor
  · intro quiet hello kind peer decoded named validated
    cases restricted : kind.openToUnpaired with
    | true => rfl
    | false =>
      obtain ⟨rest, leads⟩ := leads_greeting decoded named validated restricted
      have unsent := (quiet _ rest leads (strange_greeting ..)).1
      simp [greeting, Call.message?] at unsent
  · intro turnsAway moments rest leads strange
    have ensures : Async.Ensures (silent moments) (fun _ _ => False) []
        (self.authenticateInbound connection) := silent_authenticateInbound strange turnsAway
    constructor
    · intro moment member
      obtain ⟨_, quiet⟩ := Program.Ensures.calls ensures leads (fun _ _ begun => begun) moment
        member
      exact quiet
    · rintro result rfl
      have ended := Program.Ensures.returns ensures leads fun _ _ begun => begun
      cases result with
      | error error => exact ⟨error, rfl⟩
      | ok session => exact absurd rfl (ended session)

/-! ## A concrete handshake -/

/-- The handshake in which Bob, who is not paired, greets Alice, who is hidden. -/
def hiddenHandshake (kind : SessionKind) :
    Option (List Moment × Except NetworkError Session × World) :=
  Program.eval (accepting kind).handle (arriving kind 1 9) 0
    ((accepting kind).authenticateInbound (sampleConnection none)).run hiddenWorld

/-- The device is hidden and nothing is stored. -/
def unseen (moment : Moment) : Bool :=
  !moment.world.discoverable && moment.world.database.peers.rows.isEmpty

/-- The handshake failed because the peer is not paired. -/
def unpairedError : Except NetworkError Session → Bool
  | .error .unpaired => true
  | _ => false

theorem unpaired_of_unpairedError {result : Except NetworkError Session}
    (refused : unpairedError result = true) : result = .error .unpaired := by
  unfold unpairedError at refused
  split at refused
  · rfl
  · cases refused

/-- Bob is not paired and asks for a control session. Alice is hidden and refuses it, but not before
the hello and the signature have been sent. -/
theorem hidden_device_answers_control :
    ∃ moments,
      Program.Returns ((accepting .control).authenticateInbound (sampleConnection none)).run
        moments (.error .unpaired) ∧
      (accepting .control).Strange
        ((pairPlatform .control).encodeHello (sampleHello "bob" 2 .control)) moments ∧
      moments.filterMap (fun moment => moment.call.message?) =
        [(pairPlatform .control).encodeHello (sampleHello "alice" 1 .control),
          sampleAuth (pairPlatform .control) "alice" (sampleHello "alice" 1 .control)
            (sampleHello "bob" 2 .control)] := by
  have outcome : (hiddenHandshake .control).map (fun run =>
      (run.1.all unseen, unpairedError run.2.1, (run.1.filterMap received?).head?,
        run.1.filterMap fun moment => moment.call.message?)) =
      some (true, true, some ((pairPlatform .control).encodeHello (sampleHello "bob" 2 .control)),
        [(pairPlatform .control).encodeHello (sampleHello "alice" 1 .control),
          sampleAuth (pairPlatform .control) "alice" (sampleHello "alice" 1 .control)
            (sampleHello "bob" 2 .control)]) := by decide +kernel
  obtain ⟨⟨moments, result, after⟩, evaluated, shown⟩ := Option.map_eq_some_iff.mp outcome
  simp only [Prod.mk.injEq] at shown
  obtain ⟨all, refused, first, sent⟩ := shown
  obtain ⟨returns, answered⟩ := Program.returns_of_eval evaluated
  have each : ∀ moment ∈ moments, moment.world.discoverable = false ∧
      moment.world.database.peers.rows = [] := fun moment member => by
    simpa [unseen] using List.all_eq_true.mp all moment member
  refine ⟨moments, unpaired_of_unpairedError refused ▸ returns, ⟨answered, fun arrived same => ?_,
    fun moment member => (each moment member).1, ?_⟩, sent⟩
  · rw [first] at same
    exact (Option.some.inj same).symm
  · rintro hello kind peer - - moment member ⟨record, stored, -⟩
    simp [Database.peer, Table.find?, (each moment member).2] at stored

end Runtime

end ArcRelay
