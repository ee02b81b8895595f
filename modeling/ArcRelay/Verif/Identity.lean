import ArcRelay.Verif.Gates
import ArcRelay.Verif.Provenance

/-!
# Whom a dial reaches

Every session that is registered has a key bound to the id of its peer, and so has every
stored device. A dial returns a session that was found under its key or registered there,
so its peer is the requested one and the key is the one that is stored. For `connect` the
key is the advertised one if that is bound to the advertised id, which `connect` itself
checks for the kinds that are for paired devices only.
-/

namespace ArcRelay

open System (momentsOf)

/-- The key an operation was asked for a session under. -/
def Operation.requests : Operation → Option SessionKey
  | .connectInputRelay target => some (target, .realtimeInput)
  | operation => operation.dialKey

/-- The key of a device is the one stored for it: the one that was read, and any other that the
repository can hold. -/
structure Pinned (self : Runtime) (past : List Moment) (id : DeviceId) (key : DevicePublicKey) :
    Prop where
  read : ∃ record, ReadPaired past id record ∧ record.publicKey = key
  only : ∀ database record, Database.peer self.platform database id = .ok (some record) →
    record.publicKey = key

/-- The session a dial returns is of the requested device and kind, and has the right key. -/
def Requested (self : Runtime) (past : List Moment) : Operation → Session → Prop
  | .connect peer kind, session =>
    session.peer.deviceId = peer.deviceId ∧ session.kind = kind ∧
      (self.platform.verifyKey peer.deviceId peer.publicKey = .ok () ∨
        kind.openToUnpaired = false → session.peer.publicKey = peer.publicKey)
  | .connectRemembered id kind, session | .connectPairedAt id _ kind, session =>
    session.peer.deviceId = id ∧ session.kind = kind ∧ Pinned self past id session.peer.publicKey
  | .connectInputRelay target, session =>
    session.peer.deviceId = target ∧ session.kind = .realtimeInput ∧
      Pinned self past target session.peer.publicKey
  | _, _ => True

namespace Runtime

variable {self : Runtime} {history : History} {world : World} {session : Session}

/-- The key of a registered session is bound to the id of its peer. -/
theorem bound_of_registered (guaranteed : self.conduct.Guaranteed history)
    (traced : Traced self history world) (registered : RegisteredIn history session) :
    self.platform.verifyKey session.peer.deviceId session.peer.publicKey = .ok () := by
  obtain ⟨before, entry, later, publish, split, -, registers⟩ :=
    registers_of_registered guaranteed registered
  have past : momentsOf before entry.index ⊆ momentsOf history entry.index :=
    mem_momentsOf_of_split split
  generalize momentsOf before entry.index = seen at registers past
  generalize entry.operation = operation at registers
  cases registers with
  | incoming seenAt connection _ opened inbound => exact inbound.bound
  | accepted source seenAt tunnel connection plain opened inbound => exact inbound.bound
  | relayed target record seenAt tunnel connection plain read opened found => exact found.bound
  | dialled _ expected kind _ dials joined =>
    obtain ⟨opening, -, -, -, -, connection, -, found⟩ := raced_of_joined traced (joined.mono past)
    exact found.bound

/-- A device that was read is the one asked for, and its key is bound to the id. -/
def ReadsBound (self : Runtime) (history : History) : Prop :=
  ∀ entry ∈ history, ∀ before id record, entry.moment = ⟨before, .peer id, .ok (some record)⟩ →
    record.deviceId = id ∧ self.platform.verifyKey id record.publicKey = .ok ()

variable {index : Nat} {operation : Operation}

theorem readsBound_call {after : World} {call : Call} {proposal reply : call.Reply}
    (bound : ReadsBound self history)
    (answered : self.handle world call proposal = some (reply, after)) :
    ReadsBound self (history ++ [⟨index, operation, ⟨world, call, reply⟩⟩]) := by
  intro entry member before id record same
  rcases List.mem_concat_iff.mp member with earlier | now
  · exact bound entry earlier before id record same
  · rw [now] at same
    cases same
    have stored := World.read_eq_ok (congrArg Prod.fst (Option.some.inj answered))
    exact Database.bound_of_peer stored

/-- In every run what is registered is traced, and what is read is bound. -/
theorem traced_run (self : Runtime) (database : Database) (inputs : Inputs) :
    self.conduct.Kept (self.after database inputs) ∧
      Traced self (self.after database inputs).history (self.after database inputs).world ∧
        ReadsBound self (self.after database inputs).history :=
  self.conduct.invariant_always (fun history world => Traced self history world ∧
    ReadsBound self history)
    ⟨traced_fresh database, fun _ absent => absurd absent List.not_mem_nil⟩
    (fun _ holds proper answered =>
      ⟨traced_call holds.1 proper answered, readsBound_call holds.2 answered⟩)
    (fun event holds => ⟨traced_disturb holds.1 event, holds.2⟩) inputs

/-- A stored device that was read is the one asked for, and its key is bound to the id. -/
theorem bound_of_readPaired (bound : ReadsBound self history) {id : DeviceId} {record : PeerRecord}
    (read : ReadPaired (momentsOf history index) id record) :
    record.deviceId = id ∧ self.platform.verifyKey id record.publicKey = .ok () := by
  obtain ⟨-, seenAt, member⟩ := read
  obtain ⟨entry, present, -, made⟩ := mem_history_of_past member
  exact bound entry present seenAt id record made

/-- An operation registers sessions under the key it was asked for. -/
theorem key_of_registers (traced : Traced self history world) (bound : ReadsBound self history)
    {past : List Moment} (seen : past ⊆ momentsOf history index) {publish : Publish}
    {key : SessionKey} (registers : Registers self past operation session publish)
    (requests : operation.requests = some key) : session.key = key := by
  cases registers with
  | incoming => cases requests
  | accepted => cases requests
  | relayed target record seenAt tunnel connection plain read opened found =>
    cases requests
    have named := (bound_of_readPaired bound (read.mono seen)).1
    exact Prod.ext (found.id.trans named) found.kind
  | dialled _ expected kind _ dials joined =>
    obtain ⟨opening, -, -, -, -, connection, -, found⟩ := raced_of_joined traced (joined.mono seen)
    cases dials with
    | connect peer kind =>
      cases requests
      exact Prod.ext found.id found.kind
    | remembered id kind record read | pairedAt id addresses kind record read =>
      cases requests
      have named := (bound_of_readPaired bound (read.mono seen)).1
      exact Prod.ext (found.id.trans named) found.kind

/-- What a dial yields has its key, and was registered. -/
theorem registered_of_yielded {pool : Jobs}
    (kept : self.conduct.Kept pool) (traced : Traced self pool.history pool.world)
    (bound : ReadsBound self pool.history) {job : Job Call.Reply Outcome World Operation}
    (found : pool.jobs[index]? = some job) (does : job.operation = operation) {id : DeviceId}
    {kind : SessionKind} (requests : operation.requests = some (id, kind))
    (yielded : Yielded (momentsOf pool.history index) id kind session) :
    session.key = (id, kind) ∧ RegisteredIn pool.history session := by
  rcases yielded with ⟨seenAt, active⟩ | ⟨seenAt, own, publish, sent, returned⟩
  · obtain ⟨entry, member, -, made⟩ := mem_history_of_past active
    exact traced.active entry member seenAt id kind session made
  · obtain ⟨entry, member, sameJob, made⟩ := mem_history_of_past returned
    obtain ⟨sameKey, registered⟩ := traced.returned entry member seenAt own publish session sent
      made
    refine ⟨sameKey.trans ?_, registered⟩
    obtain ⟨before, later, split⟩ := List.append_of_mem member
    have registers : Proper self entry.operation (momentsOf before entry.index)
        entry.moment.call := kept.entries before entry later split
    obtain ⟨other, present, doesToo⟩ := kept.recorded.known entry member
    rw [sameJob] at present
    obtain rfl : job = other := Option.some.inj (found.symm.trans present)
    rw [made, ← doesToo, does] at registers
    exact key_of_registers traced bound (mem_momentsOf_of_split split) registers requests

/-- A `connect` that returns a session returns one with the key it was asked for. -/
theorem key_of_connect (database : Database) (inputs : Inputs)
    {peer : PeerAdvertisement} {kind : SessionKind}
    (returned : System.outcome (self.after database inputs) index =
      some (.connect peer kind, .session (.ok session))) :
    session.key = (peer.deviceId, kind) := by
  obtain ⟨kept, traced, bound⟩ := traced_run self database inputs
  obtain ⟨job, found, does, -⟩ := System.outcome_eq_some returned
  have yields : Yields (.connect peer kind) _ (.session (.ok session)) := kept.achieved returned
  exact (registered_of_yielded kept traced bound found does rfl yields.2).1

/-- The key of a registered session is the one stored for its peer. -/
theorem pinned_of_registered (guaranteed : self.conduct.Guaranteed history)
    (traced : Traced self history world) (bound : ReadsBound self history) {id : DeviceId}
    {record : PeerRecord} (device : session.peer.deviceId = id)
    (registered : RegisteredIn history session)
    (read : ReadPaired (momentsOf history index) id record) :
    Pinned self (momentsOf history index) id session.peer.publicKey := by
  have own := bound_of_registered guaranteed traced registered
  rw [device] at own
  refine ⟨⟨record, read, ?_⟩, fun database stored found => ?_⟩
  · exact self.platform.verifyKey_unique id _ _ (bound_of_readPaired bound read).2 own
  · exact self.platform.verifyKey_unique id _ _ (Database.bound_of_peer found).2 own

/-- In every run, whatever the dialled ends answer: a dial that returns a session returns one of the
requested device and kind, with the key that is stored for the device. The key is the advertised one
if that is bound to the id of the device, and for the kinds that are for paired devices only. -/
theorem dial_yields_requested (self : Runtime) (database : Database)
    (inputs : Inputs) {session : Session}
    (returned : System.outcome (self.after database inputs) index =
      some (operation, .session (.ok session))) :
    Requested self (momentsOf (self.after database inputs).history index) operation
      session := by
  obtain ⟨kept, traced, bound⟩ := traced_run self database inputs
  have yields := kept.achieved returned
  obtain ⟨job, found, does, -⟩ := System.outcome_eq_some returned
  have registered : ∀ {id kind}, operation.requests = some (id, kind) →
      Yielded (momentsOf (self.after database inputs).history index) id kind session →
        session.key = (id, kind) ∧ RegisteredIn (self.after database inputs).history session :=
    registered_of_yielded kept traced bound found does
  cases operation with
  | connect peer kind =>
    obtain ⟨checked, yielded⟩ := yields
    obtain ⟨sameKey, known⟩ := registered rfl yielded
    obtain ⟨device, sameKind⟩ := Prod.mk.inj sameKey
    refine ⟨device, sameKind, fun genuine => ?_⟩
    have own := bound_of_registered kept.entries traced known
    rw [device] at own
    have advertised : self.platform.verifyKey peer.deviceId peer.publicKey = .ok () := by
      rcases genuine with verified | closed
      · exact verified
      · rcases checked with nearby | ⟨record, read, same⟩
        · exact absurd (nearby.symm.trans closed) Bool.noConfusion
        · exact same ▸ (bound_of_readPaired bound read).2
    exact self.platform.verifyKey_unique _ _ _ own advertised
  | connectRemembered | connectPairedAt | connectInputRelay =>
    obtain ⟨⟨record, read⟩, yielded⟩ := yields
    obtain ⟨sameKey, known⟩ := registered rfl yielded
    obtain ⟨device, sameKind⟩ := Prod.mk.inj sameKey
    exact ⟨device, sameKind, pinned_of_registered kept.entries traced bound device known read⟩
  | acceptInputRelay | acceptIncoming | candidate | cleanup | completePairing | confirmPairing
  | forget | disconnect | setPeerAutoConnect | grant | revoke => trivial

/-- A dial to Bob, whose key is bound to the id, yields a session of Bob. -/
theorem dial_yields_requested_bob : ∃ session, sharedSession = some session ∧
    session.peer.deviceId = ⟨"bob"⟩ ∧ session.kind = .pairing ∧
      session.peer.publicKey = bobAdvertisement.publicKey := by
  obtain ⟨dialled, shared, verified⟩ :
      (System.outcome sharedPool 0).map Prod.fst = some (.connect bobAdvertisement .pairing) ∧
      sharedSession.isSome = true ∧ (accepting .pairing).platform.verifyKey
        bobAdvertisement.deviceId bobAdvertisement.publicKey = .ok () := by
    decide +kernel
  obtain ⟨⟨operation, outcome⟩, returned, rfl⟩ := Option.map_eq_some_iff.mp dialled
  obtain ⟨session, found⟩ := Option.isSome_iff_exists.mp shared
  have same : outcome = .session (.ok session) := by
    unfold sharedSession at found
    rw [returned] at found
    split at found
    · rename_i other result
      cases result
      cases found
      rfl
    · cases found
  subst same
  obtain ⟨device, kind, key⟩ := dial_yields_requested (accepting .pairing) .empty sharedRun returned
  exact ⟨session, found, device, kind, key (.inl verified)⟩

/-- What somebody else advertises in Bob's name, with a key that is not bound to it. -/
def forgedAdvertisement : PeerAdvertisement := { bobAdvertisement with publicKey := .sample "eve" }

/-- Alice has a session with Bob and dials the forged advertisement. -/
def forgedRun : Inputs :=
  List.flatten [
    [.start (.connect bobAdvertisement .pairing), .start (.candidate 0 0),
      .start (.connect forgedAdvertisement .pairing)],
    resumes 0 (fun _ => Call.smooth) 0 4,
    resumes 1 (answering .pairing) 0 38,
    resumes 0 (fun _ => Call.smooth) 4 8,
    resumes 2 (fun _ => Call.smooth) 0 4]

/-- What a dial of the forged advertisement has returned is a session with another key. -/
def returnsOtherKey : Option (Operation × Outcome) → Bool
  | some (operation, .session (.ok session)) =>
    operation == .connect forgedAdvertisement .pairing &&
      session.peer.publicKey != forgedAdvertisement.publicKey
  | _ => false

/-- The session with Bob is returned, whose key is not the advertised one. -/
theorem dial_returns_other_key : ∃ session,
    System.outcome ((accepting .pairing).after .empty forgedRun) 2 =
      some (.connect forgedAdvertisement .pairing, .session (.ok session)) ∧
    session.peer.publicKey ≠ forgedAdvertisement.publicKey := by
  have found : returnsOtherKey
      (System.outcome ((accepting .pairing).after .empty forgedRun) 2) = true := by
    decide +kernel
  unfold returnsOtherKey at found
  split at found
  · rename_i operation session returned
    simp only [Bool.and_eq_true, beq_iff_eq, bne_iff_ne] at found
    obtain ⟨rfl, other⟩ := found
    exact ⟨session, returned, other⟩
  · cases found

end Runtime

end ArcRelay
