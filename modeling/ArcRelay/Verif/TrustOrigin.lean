import ArcRelay.Verif.Conduct
import ArcRelay.Verif.Forgetting

/-!
# Where trust comes from

A peer is stored as paired by `confirm_pairing` and, again, by
`set_peer_auto_connect`, which reads the peer's row, awaits, and writes the whole
row back. As long as it writes onto a row that is still there and still paired,
every stored trust goes back to a confirmed pairing that no `forget` has undone.
A `forget` between the read and the write is undone by the write.
-/

namespace ArcRelay

/-- The device whose row was removed. -/
def removedPeer : Moment → Option DeviceId
  | ⟨_, .forgetPeer id, .ok true⟩ => some id
  | _ => none

/-- An operation that confirms a pairing session has stored its pairing. -/
structure Confirmed (session : Session) (entry : Record) : Prop where
  confirms : entry.operation.confirms = some session
  kind : session.kind = .pairing
  stored : storedPairing entry.moment = some session.peer.deviceId

/-- The trust in a row is earned: a pairing session with the row's device, authenticated with the
row's key, was confirmed, and the device has not been removed since. -/
structure Earned (platform : Platform) (history : History)
    (row : PeerRow) (session : Session) : Prop where
  device : row.deviceId = session.peer.deviceId.asStr
  key : row.publicKey = session.peer.publicKey.asBytes
  bound : platform.verifyKey session.peer.deviceId session.peer.publicKey = .ok ()
  /-- The session was confirmed, and its device not removed since. -/
  confirmed : ∃ before entry later, history = before ++ entry :: later ∧ Confirmed session entry ∧
    ∀ other ∈ later, removedPeer other.moment ≠ some session.peer.deviceId

/-- Every stored trust is earned. -/
def TrustEarned (platform : Platform) (pool : Jobs) : Prop :=
  ∀ row ∈ pool.world.database.peers.rows, row.trustState = encodeTrust .paired →
    ∃ session, Earned platform pool.history row session

/-- A row is written back only onto a row of the device that is stored as paired. -/
def OntoPaired : Moment → Prop
  | ⟨world, .savePeer record, _⟩ => ∃ row ∈ world.database.peers.rows,
    row.deviceId = record.deviceId.asStr ∧ row.trustState = encodeTrust .paired
  | _ => True

instance (moment : Moment) : Decidable (OntoPaired moment) := by
  unfold OntoPaired
  split <;> infer_instance

theorem forgottenPeer_of_removed {moment : Moment} {id : DeviceId}
    (removed : removedPeer moment = some id) : forgottenPeer moment = some id := by
  obtain ⟨world, call, reply⟩ := moment
  cases call
  case forgetPeer other =>
    cases reply with
    | error error => cases removed
    | ok existed =>
      cases existed with
      | false => cases removed
      | true => exact removed
  all_goals cases removed

theorem Earned.concat {platform : Platform} {history : History} {row : PeerRow} {session : Session}
    (earned : Earned platform history row session) {entry : Record}
    (unremoved : removedPeer entry.moment ≠ some session.peer.deviceId) :
    Earned platform (history ++ [entry]) row session := by
  obtain ⟨before, first, later, rfl, confirmed, standing⟩ := earned.confirmed
  refine ⟨earned.device, earned.key, earned.bound, before, first, later ++ [entry], by simp,
    confirmed, fun other member => ?_⟩
  rcases List.mem_concat_iff.mp member with earlier | rfl
  · exact standing other earlier
  · exact unremoved

/-- A row that is written back with a key of its device keeps the trust. -/
theorem Earned.rewrite {platform : Platform} {history : History}
    {row : PeerRow} {session : Session} (earned : Earned platform history row session)
    {record : PeerRecord} (device : row.deviceId = record.deviceId.asStr)
    (bound : platform.verifyKey record.deviceId record.publicKey = .ok ()) :
    Earned platform history (encodePeer record) session := by
  have sameId : record.deviceId = session.peer.deviceId :=
    DeviceId.asStr_injective (device.symm.trans earned.device)
  rw [sameId] at bound
  have sameKey := platform.verifyKey_unique _ _ _ bound earned.bound
  exact ⟨congrArg DeviceId.asStr sameId, congrArg DevicePublicKey.asBytes sameKey, earned.bound,
    earned.confirmed⟩

namespace Runtime

variable {self : Runtime}

/-- One call keeps all stored trust earned. -/
theorem trustEarned_call {index : Nat} {operation : Operation} {history : History}
    {world after : World} {call : Call} {proposal reply : Call.Reply call}
    (earned : ∀ row ∈ world.database.peers.rows, row.trustState = encodeTrust .paired →
      ∃ session, Earned self.platform history row session)
    (proper : Proper self operation (System.momentsOf history index) call)
    (answered : self.handle world call proposal = some (reply, after))
    (onto : OntoPaired ⟨world, call, reply⟩) :
    ∀ row ∈ after.database.peers.rows, row.trustState = encodeTrust .paired →
      ∃ session, Earned self.platform (history ++ [⟨index, operation, ⟨world, call, reply⟩⟩]) row
        session := by
  intro row member paired
  rcases handle_peers answered member with ⟨before, unforgotten⟩ | ⟨record, stored, rfl, bound⟩
  · obtain ⟨session, known⟩ := earned row before paired
    refine ⟨session, known.concat fun removed => ?_⟩
    exact unforgotten _ (forgottenPeer_of_removed removed) known.device
  · cases call
    case savePeer saved =>
      cases reply with
      | error error => cases stored
      | ok value =>
        cases stored
        obtain ⟨old, present, device, trusted⟩ := onto
        obtain ⟨session, known⟩ := earned old present trusted
        exact ⟨session, (known.rewrite device bound).concat nofun⟩
    case savePairing saved grants =>
      cases reply with
      | error error => cases stored
      | ok value =>
        cases stored
        obtain ⟨session, now, confirms, kind, rfl⟩ := proper
        exact ⟨session, rfl, rfl, bound, history, _, [], rfl, ⟨confirms, kind, rfl⟩, by simp⟩
    all_goals cases stored

/-- In a run in which rows are written back onto paired rows only, every stored trust is earned. -/
theorem trust_originates (self : Runtime) (database : Database)
    (untrusting : ∀ row ∈ database.peers.rows, row.trustState ≠ encodeTrust .paired)
    {inputs : Inputs}
    (onto : Run.Along self.system.step (System.initial (World.fresh database))
      (self.system.Meets fun _ => OntoPaired) inputs) :
    Run.Throughout self.system.step (System.initial (World.fresh database))
      (TrustEarned self.platform) inputs := by
  have kept := self.conduct.invariant_run (fun history world =>
    ∀ row ∈ world.database.peers.rows, row.trustState = encodeTrust .paired →
      ∃ session, Earned self.platform history row session)
    (fun row member paired => absurd paired (untrusting row member))
    (fun _ => trustEarned_call)
    (fun event known => by simpa only [system, World.disturb_database] using known) onto
  exact fun done isPrefix => (kept done isPrefix).2

/-! ## Concrete runs -/

/-- Whether the last pairing of a device that was stored has not been undone by a removal. -/
def standing (id : DeviceId) (history : History) : Bool :=
  history.foldl (fun stands entry =>
    if storedPairing entry.moment = some id then true
    else if removedPeer entry.moment = some id then false else stands) false

theorem stands_of_unremoved {id : DeviceId} {later : History}
    (unremoved : ∀ entry ∈ later, removedPeer entry.moment ≠ some id) :
    later.foldl (fun stands entry =>
      if storedPairing entry.moment = some id then true
      else if removedPeer entry.moment = some id then false else stands) true = true := by
  induction later with
  | nil => rfl
  | cons entry later ih =>
    have here := unremoved entry List.mem_cons_self
    have rest := ih fun other member => unremoved other (List.mem_cons_of_mem _ member)
    simpa [here] using rest

theorem standing_of_earned {platform : Platform} {history : History} {row : PeerRow}
    {session : Session} (earned : Earned platform history row session) :
    standing session.peer.deviceId history = true := by
  obtain ⟨before, entry, later, rfl, confirmed, unremoved⟩ := earned.confirmed
  rw [standing, List.foldl_append, List.foldl_cons, if_pos confirmed.stored]
  exact stands_of_unremoved unremoved

/-- Bob is paired; `set_peer_auto_connect` makes so many calls, Bob is forgotten or not, and it goes
on. Its third call writes the row. -/
def autoConnectRun (before : Nat) (forgets : Bool) :
    Inputs :=
  List.flatten [
    [.start (.confirmPairing (.sample "bob" "bob" 0 .pairing 7 false) []),
      .start (.setPeerAutoConnect ⟨"bob"⟩ false), .start (.forget ⟨"bob"⟩)],
    resumes 0 (fun _ => Call.smooth) 0 8,
    resumes 1 (fun _ => Call.smooth) 0 before,
    resumes 2 (fun _ => Call.smooth) 0 (if forgets then 4 else 0),
    resumes 1 (fun _ => Call.smooth) before (3 - before)]

/-- The pool after it. -/
def autoConnectPool (before : Nat) (forgets : Bool) : Jobs :=
  Run.exec (accepting .pairing).system.step (System.initial (World.fresh .empty))
    (autoConnectRun before forgets)

/-- Without a `forget` in between, the row that was written back is earned. -/
theorem trust_originates_undisturbed :
    ((autoConnectPool 3 false).world.database.peers.rows.any fun row =>
      row.deviceId = "bob" ∧ row.trustState = 1 ∧ row.autoConnect = 0) = true ∧
    TrustEarned (pairPlatform .pairing) (autoConnectPool 3 false) :=
  ⟨by decide +kernel, trust_originates (accepting .pairing) .empty (by decide)
    (show Run.Along _ _ _ (autoConnectRun 3 false) by decide +kernel) _ (List.prefix_refl _)⟩

/-- Bob is forgotten between the read and the write of `set_peer_auto_connect`: Bob is stored as
paired again, and no pairing has been confirmed since. -/
theorem forgotten_trust_returns :
    System.outcome (autoConnectPool 2 true) 2 = some (.forget ⟨"bob"⟩, .flag (.ok true)) ∧
    ((autoConnectPool 2 true).world.database.peers.rows.any fun row =>
      row.deviceId = "bob" ∧ row.trustState = 1) = true ∧
    ¬ TrustEarned (pairPlatform .pairing) (autoConnectPool 2 true) := by
  have stored : ((autoConnectPool 2 true).world.database.peers.rows.any fun row =>
      row.deviceId = "bob" ∧ row.trustState = 1) = true := by decide +kernel
  refine ⟨by decide +kernel, stored, fun every => ?_⟩
  obtain ⟨row, member, named⟩ := List.any_eq_true.mp stored
  obtain ⟨device, trusted⟩ := of_decide_eq_true named
  obtain ⟨session, earned⟩ := every row member trusted
  have sameId : session.peer.deviceId = ⟨"bob"⟩ :=
    DeviceId.asStr_injective (earned.device.symm.trans device)
  have stands := standing_of_earned earned
  rw [sameId] at stands
  exact absurd stands (by decide +kernel)

end Runtime

end ArcRelay
