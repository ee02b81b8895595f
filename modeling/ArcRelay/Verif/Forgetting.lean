import ArcRelay.Lib.Withdrawal
import ArcRelay.System
import ArcRelay.Verif.Trusting

/-!
# Forgetting a peer

`forget` deletes the peer's row, later sweeps its sessions, and awaits in
between. A handshake checks the row, awaits, and registers its session. A
forgotten peer is shut out in every interleaving in which a session that needs a
paired peer is registered only while the row is still there. The code does not
look again when it registers, so a handshake that overlaps with `forget` gets in.
-/

namespace ArcRelay

/-- The repository has a row of the device. -/
def Stored (world : World) (id : DeviceId) : Prop :=
  ∃ row ∈ world.database.peers.rows, row.deviceId = id.asStr

instance (world : World) (id : DeviceId) : Decidable (Stored world id) :=
  inferInstanceAs (Decidable (∃ row ∈ world.database.peers.rows, row.deviceId = id.asStr))

/-- A call that leaves a forgotten device alone: a session that needs a paired peer is registered,
and a row is changed, only while the device has a row; and a pairing is not stored while the device
is being forgotten. -/
def LeavesForgotten (id : DeviceId) (pool : Jobs) : Call → Prop
  | .register session _ => session.peer.deviceId = id → session.kind.openToUnpaired = false →
    Stored pool.world id
  | .savePeer record => record.deviceId = id → Stored pool.world id
  | .savePairing record _ => record.deviceId = id → ∀ job ∈ pool.jobs, job.operation = .forget id →
    ¬ System.UnderWay job
  | _ => True

instance (id : DeviceId) (pool : Jobs) (call : Call) :
    Decidable (LeavesForgotten id pool call) := by
  unfold LeavesForgotten
  split <;> infer_instance

/-- The device has no session that needs a paired peer. -/
def WithoutTrusted (id : DeviceId) (world : World) : Prop :=
  ∀ kind : SessionKind, kind.openToUnpaired = false → world.registry.sessions (id, kind) = none

/-- Every `forget` of the device that has returned has shut it out: until a pairing of it is stored
again, it has no session that needs a paired peer, and none was published. -/
def ShutOut (id : DeviceId) (pool : Jobs) : Prop :=
  ∀ index forgotten later, System.outcome pool index = some (.forget id, .flag (.ok forgotten)) →
    System.CallsSince pool.history index later →
      (∀ entry ∈ later, storedPairing entry.moment ≠ some id) →
        WithoutTrusted id pool.world ∧
          ∀ entry ∈ later, ∀ session, published entry.moment = some session →
            session.peer.deviceId = id → session.kind.openToUnpaired = true

namespace Runtime

variable {self : Runtime} {world after : World} {call : Call} {proposal reply : Call.Reply call}

variable {id : DeviceId}

/-- Once the row is gone it stays away until a pairing is stored. -/
theorem unstored_handle (absent : ¬ Stored world id)
    (unchanged : ∀ record, call = .savePeer record → record.deviceId ≠ id)
    (answered : self.handle world call proposal = some (reply, after))
    (unpaired : storedPairing ⟨world, call, reply⟩ ≠ some id) : ¬ Stored after id := by
  rintro ⟨row, member, named⟩
  rcases handle_peers answered member with ⟨before, -⟩ | ⟨record, stored, rfl, -⟩
  · exact absent ⟨row, before, named⟩
  · have sameId : record.deviceId = id := DeviceId.asStr_injective named
    cases call
    case savePeer saved =>
      cases reply with
      | error error => cases stored
      | ok value =>
        cases stored
        exact unchanged _ rfl sameId
    case savePairing saved grants =>
      cases reply with
      | error error => cases stored
      | ok value =>
        cases stored
        exact unpaired (congrArg some sameId)
    all_goals cases stored

/-- Nothing becomes registered for a device without a row. -/
theorem withoutTrusted_handle (clean : WithoutTrusted id world)
    (unregistered : ∀ session publish, call = .register session publish →
      session.peer.deviceId = id → session.kind.openToUnpaired = true)
    (answered : self.handle world call proposal = some (reply, after)) :
    WithoutTrusted id after := by
  intro kind trusted
  cases found : after.registry.sessions (id, kind) with
  | none => rfl
  | some entry =>
    by_cases registers : ∃ session publish, call = .register session publish
    · obtain ⟨session, publish, rfl⟩ := registers
      rcases (handle_register answered).entries found with before | ⟨same, -⟩
      · rw [clean kind trusted] at before
        cases before
      · have sameId : id = session.peer.deviceId := congrArg Prod.fst same
        have sameKind : kind = session.kind := congrArg Prod.snd same
        have opened := unregistered session publish rfl sameId.symm
        rw [← sameKind, trusted] at opened
        cases opened
    · have before := handle_recedes (fun session publish same => registers ⟨session, publish, same⟩)
        answered _ _ found
      rw [clean kind trusted] at before
      cases before

theorem withoutTrusted_sweep {proposal reply : Call.Reply (.sweep id)}
    (answered : self.handle world (.sweep id) proposal = some (reply, after)) :
    WithoutTrusted id after := by
  intro kind _
  cases answered
  simp [Registry.forget]

/-- `forget` sweeps after it has deleted, and returns after it has swept. -/
theorem stages_forget (id : DeviceId) :
    (self.program (.forget id)).Ensures
      (⟨fun past call => call = .sweep id →
        ∃ moment ∈ past, ∃ world existed, moment = ⟨world, .forgetPeer id, .ok existed⟩,
        fun _ _ => True⟩ : Program.Contract World Call.Reply)
      (fun past value => (∃ forgotten, value = .flag (.ok forgotten)) →
        ∃ before last, past = before ++ [last] ∧ last.call = .sweep id) [] := by
  refine ⟨nofun, fun deleted reply _ => ?_⟩
  cases reply with
  | error error =>
    rintro ⟨forgotten, same⟩
    cases same
  | ok existed =>
    refine ⟨nofun, fun _ cleared _ => ?_⟩
    cases cleared with
    | error error =>
      rintro ⟨forgotten, same⟩
      cases same
    | ok value =>
      refine ⟨nofun, fun _ _ _ => ⟨fun _ => ?_, fun swept reply _ _ => ?_⟩⟩
      · exact ⟨⟨deleted, .forgetPeer id, .ok existed⟩, by simp, deleted, existed, rfl⟩
      · exact ⟨_, ⟨swept, .sweep id, reply⟩, rfl, rfl⟩

/-- Forgetting a device withdraws the permission its row is. -/
def forgetting (self : Runtime) (id : DeviceId) : Withdrawal self.system where
  withdraws operation := operation = .forget id
  succeeded value := ∃ forgotten, value = .flag (.ok forgotten)
  revokes moment := ∃ world existed, moment = ⟨world, .forgetPeer id, .ok existed⟩
  clears call := call = .sweep id
  mayRestore call := ∃ record grants, call = .savePairing record grants ∧ record.deviceId = id
  restores moment := storedPairing moment = some id
  absent world := ¬ Stored world id
  clean := WithoutTrusted id
  admissible world call :=
    (∀ session publish, call = .register session publish → session.peer.deviceId = id →
      session.kind.openToUnpaired = false → Stored world id) ∧
    ∀ record, call = .savePeer record → record.deviceId = id → Stored world id
  programs := by
    rintro operation rfl
    exact stages_forget id
  restoring := by
    rintro ⟨world, call, reply⟩ restores
    cases call
    case savePairing record grants =>
      cases reply with
      | error error => cases restores
      | ok value => exact ⟨record, grants, rfl, Option.some.inj restores⟩
    all_goals cases restores
  revoked := by
    rintro world call proposal reply after answered ⟨before, existed, same⟩
    cases same
    rintro ⟨row, member, named⟩
    rcases World.write_cases (Option.some.inj answered) with ⟨⟨error, failed⟩, -⟩ |
      ⟨value, database, saved, -, rfl⟩
    · cases failed
    · cases saved
      exact (of_decide_eq_false (Table.mem_deleteWhere.mp member).2) named
  remains := by
    intro world call proposal reply after absent admissible answered unpaired
    exact unstored_handle absent (fun record same named => absent (admissible.2 record same named))
      answered unpaired
  cleared := by
    rintro world call proposal reply after rfl answered
    have swept : self.handle world (.sweep id) proposal = some (reply, after) := answered
    exact withoutTrusted_sweep swept
  stays := by
    intro world call proposal reply after absent clean admissible answered
    refine withoutTrusted_handle clean (fun session publish same named => ?_) answered
    by_contra trusted
    exact absent (admissible.1 session publish same named (by simpa using trusted))
  undisturbed := by
    intro world event absent
    simpa only [system, Stored, World.disturb_database] using absent
  unbuilt := by
    intro world event clean kind trusted
    cases found : (world.disturb event).registry.sessions (id, kind) with
    | none => exact found
    | some entry =>
      have before := World.disturb_recedes world event _ _ found
      rw [clean kind trusted] at before
      cases before

theorem respected_of_leavesForgotten {pool : Jobs} {input : Pool.Input Call.Reply Operation Event}
    (leaves : ∀ request, System.Next pool input request → LeavesForgotten id pool request) :
    (self.forgetting id).Respected pool input := by
  intro request next
  have assumed := leaves request next
  refine ⟨⟨?_, ?_⟩, ?_⟩
  · rintro session publish rfl
    exact assumed
  · rintro record rfl
    exact assumed
  · rintro ⟨record, grants, rfl, named⟩
    exact assumed named

/-- In a run in which every step leaves forgotten devices alone, a device that was forgotten is shut
out until it is paired again. -/
theorem forgotten_shut_out (self : Runtime) (id : DeviceId) (database : Database) {inputs : Inputs}
    (leaves : Run.Along self.system.step (System.initial (World.fresh database))
      (fun pool input => ∀ request, System.Next pool input request →
        LeavesForgotten id pool request) inputs) :
    Run.Throughout self.system.step (System.initial (World.fresh database)) (ShutOut id)
      inputs := by
  have achieved : Run.Throughout self.system.step (System.initial (World.fresh database))
      (self.forgetting id).Achieved inputs :=
    Withdrawal.achieved_run fun done input isPrefix =>
      respected_of_leavesForgotten (leaves done input isPrefix)
  intro done isPrefix index forgotten later outcome since unpaired
  obtain ⟨job, found, forgets, returned⟩ := System.outcome_eq_some outcome
  obtain ⟨-, clean, barred⟩ := (achieved done isPrefix).since index job _ later found forgets
    returned ⟨forgotten, rfl⟩ since unpaired
  refine ⟨clean, fun entry member session shown named => ?_⟩
  -- a published session has the key of the one registered, which was barred
  have bar := barred entry member
  obtain ⟨index, operation, world, call, reply⟩ := entry
  obtain ⟨proposal, after, answered⟩ := bar.answered
  obtain ⟨registered, publish, rfl, same, -⟩ := published_of_handle answered shown
  have sameId : registered.peer.deviceId = id := (congrArg Prod.fst same).symm.trans named
  by_contra trusted
  refine bar.absent (bar.admissible.1 registered publish rfl sameId ?_)
  rw [← show session.kind = registered.kind from congrArg Prod.snd same]
  simpa using trusted

/-! ## Concrete runs -/

/-- A platform that knows two devices' hellos of a kind. -/
def pairPlatform (kind : SessionKind) : Platform :=
  .sample [sampleHello "alice" 1 kind, sampleHello "bob" 2 kind] ⟨none, []⟩

/-- Alice, whom Bob connects to. -/
def accepting (kind : SessionKind) : Runtime := sample (pairPlatform kind) "alice" 1

/-- What arrives when Bob connects: at given times the hello and the signature, otherwise the
confirmation. -/
def arriving (kind : SessionKind) (hello auth : Nat) (time : Nat) : (call : Call) → call.Reply
  | .incoming => .ok (sampleConnection none)
  | .throughTunnel _ _ => .ok (sampleConnection none)
  | .receive _ _ =>
    .ok (if time = hello then [1, 0]
      else if time = auth then
        sampleAuth (pairPlatform kind) "bob" (sampleHello "alice" 1 kind) (sampleHello "bob" 2 kind)
      else [2])
  | call => call.smooth

/-- So many calls of a job, in an environment that depends on the time. -/
def resumes (job : Nat) (environment : Nat → (call : Call) → call.Reply) (start calls : Nat) :
    Inputs :=
  (List.range' start calls).map fun time => .resume job (environment time)

/-- What Bob advertises. -/
def bobAdvertisement : PeerAdvertisement where
  deviceId := ⟨"bob"⟩
  publicKey := .sample "bob"
  metadata := ⟨"", "", ""⟩
  addresses := []
  connectionAddresses := [.v4 1 9]
  port := 9
  certificateSha256 := Vector.replicate 32 2
  lastSeenAtMs := 0

/-- What reaches a candidate that dials Bob: its seventeenth call receives the hello, the
twenty-third the signature. -/
def answering (kind : SessionKind) (time : Nat) : (call : Call) → call.Reply
  | .connect _ _ => .ok (sampleConnection (some (List.replicate 32 2)))
  | call => arriving kind 16 22 time call

/-- Bob is paired and opens a control session; after so many calls of the handshake Bob is
forgotten, then the handshake goes on. The last of its forty-two calls registers the session. -/
def forgetRun (before : Nat) : Inputs :=
  List.flatten [
    [.start (.confirmPairing (.sample "bob" "bob" 0 .pairing 7 false) []), .start .acceptIncoming,
      .start (.forget ⟨"bob"⟩)],
    resumes 0 (fun _ => Call.smooth) 0 8,
    resumes 1 (arriving .control 6 22) 0 before,
    resumes 2 (fun _ => Call.smooth) 0 4,
    resumes 1 (arriving .control 6 22) before (42 - before)]

/-- The pool after it. -/
def forgetPool (before : Nat) : Jobs :=
  Run.exec (accepting .control).system.step (System.initial (World.fresh .empty)) (forgetRun before)

/-- Bob has a control session and is then forgotten: it is gone. -/
theorem forgotten_shut_out_connected :
    ((Run.exec (accepting .control).system.step (System.initial (World.fresh .empty))
      ((forgetRun 42).take 53)).world.registry.sessions (⟨"bob"⟩, .control)).isSome = true ∧
    WithoutTrusted ⟨"bob"⟩ (forgetPool 42).world := by
  obtain ⟨registered, returned, made, unpaired⟩ :
      ((Run.exec (accepting .control).system.step (System.initial (World.fresh .empty))
        ((forgetRun 42).take 53)).world.registry.sessions (⟨"bob"⟩, .control)).isSome = true ∧
      System.outcome (forgetPool 42) 2 = some (.forget ⟨"bob"⟩, .flag (.ok true)) ∧
      (∃ entry ∈ (forgetPool 42).history, entry.index = 2) ∧
      ∀ entry ∈ System.since (forgetPool 42).history 2,
        storedPairing entry.moment ≠ some ⟨"bob"⟩ := by
    decide +kernel
  refine ⟨registered, ?_⟩
  have every := forgotten_shut_out (accepting .control) ⟨"bob"⟩ .empty
    (show Run.Along _ _ (fun pool input => ∀ request, System.Next pool input request →
      LeavesForgotten ⟨"bob"⟩ pool request) (forgetRun 42) by decide +kernel)
  have shut : ShutOut ⟨"bob"⟩ (forgetPool 42) := every (forgetRun 42) (List.prefix_refl _)
  exact (shut 2 true _ returned (System.callsSince_since made) unpaired).1

/-- Bob is forgotten between the last check of the row and the registration of the session: it is
registered, open and published. -/
theorem forgotten_peer_enters :
    (((forgetPool 41).world.registry.sessions (⟨"bob"⟩, .control)).any fun entry =>
      (forgetPool 41).world.registry.isOpen entry.connection) = true ∧
    ((System.since (forgetPool 41).history 2).any fun entry =>
      (published entry.moment).any fun session => session.kind == .control) = true ∧
    ¬ ShutOut ⟨"bob"⟩ (forgetPool 41) := by
  obtain ⟨registered, entered, returned, made, unpaired⟩ :
      (((forgetPool 41).world.registry.sessions (⟨"bob"⟩, .control)).any fun entry =>
        (forgetPool 41).world.registry.isOpen entry.connection) = true ∧
      ((System.since (forgetPool 41).history 2).any fun entry =>
        (published entry.moment).any fun session => session.kind == .control) = true ∧
      System.outcome (forgetPool 41) 2 = some (.forget ⟨"bob"⟩, .flag (.ok true)) ∧
      (∃ entry ∈ (forgetPool 41).history, entry.index = 2) ∧
      ∀ entry ∈ System.since (forgetPool 41).history 2,
        storedPairing entry.moment ≠ some ⟨"bob"⟩ := by
    decide +kernel
  refine ⟨registered, entered, fun shut => ?_⟩
  have clean := (shut 2 true _ returned (System.callsSince_since made) unpaired).1
  rw [clean .control rfl] at registered
  cases registered

end Runtime

end ArcRelay
