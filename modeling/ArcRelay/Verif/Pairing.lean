import ArcRelay.Verif.Protocol
import ArcRelay.Verif.Trusting
import ArcRelay.Verif.World

/-!
# Completing a pairing

`complete_pairing` accepts from the peer only what was asked for, and writes the
repository in one call. Everything before that call leaves the repository alone,
so a pairing that fails has changed nothing; everything after it cannot fail.
-/

namespace ArcRelay

open Async

/-! ## Merged grants -/

/-- Merging keeps the new grants, and the existing ones of other keys. -/
theorem mem_mergeGrants {existing new : List Grant} (distinct : (existing.map Grant.key).Nodup)
    (distinctNew : (new.map Grant.key).Nodup) {grant : Grant} :
    grant ∈ mergeGrants existing new ↔
      grant ∈ new ∨ (grant ∈ existing ∧ grant.key ∉ new.map Grant.key) := by
  rw [mergeGrants, List.foldl_append, Table.mem_foldl_upsert distinctNew,
    Table.mem_foldl_upsert distinct]
  simp [Table.empty]

namespace Runtime

variable {self : Runtime}

/-! ## Programs that do not write the repository -/

/-- The contract of programs that never write the repository, whatever they are told. -/
def unwriting : Program.Contract World Call.Reply where
  guarantee _ call := call.writes = false
  rely _ _ := True

theorem unwriting_monotone : unwriting.Monotone := ⟨fun _ => id, fun _ => id⟩

variable {past : List Moment}

/-- The program never writes the repository, and what it returns satisfies the postcondition. -/
abbrev Quiet {α : Type} (post : α → Prop) (past : List Moment)
    (program : Action α) : Prop :=
  Async.Ensures unwriting (fun _ => post) past program

variable {world : World}

theorem wp_quiet {α : Type} {post : α → Prop} {program : Program Call.Reply α}
    (quiet : program.Ensures unwriting (fun _ => post) []) :
    program.wp self.handle (fun value after => post value ∧ after.database = world.database)
      world := by
  refine Program.wp_mono (quiet.wp (fun before after : World => after.database = before.database)
    (fun _ => rfl) (fun first second => second.trans first)
    (fun guaranteed answered => ⟨trivial, handle_database guaranteed answered⟩) world) ?_
  rintro value after ⟨⟨_, known⟩, same⟩
  exact ⟨known, same⟩

theorem Call.writes_of_remembers {call : Call} (remembers : call.remembers = true) :
    call.writes = false := by
  cases call <;> first | rfl | cases remembers

theorem quiet_ask {call : Call} (quiet : call.writes = false) :
    Quiet (fun _ => True) past (ask call) :=
  ensures_call quiet fun _ _ _ => trivial

/-! ## Confirmation -/

/-- What a confirmed pairing leaves in the repository: the peer is paired under the session's key,
its grants are the previous ones overridden by the granted, and no other peer's rows change. -/
structure PairedWith (platform : Platform) (session : Session) (granted : List Grant)
    (before after : Database) : Prop where
  paired : ∃ record, after.peer platform session.peer.deviceId = .ok (some record) ∧
    record.trustState = .paired ∧ record.publicKey = session.peer.publicKey
  grants : ∃ previous current,
    before.grantsOf platform session.peer.deviceId = .ok previous ∧
      after.grantsOf platform session.peer.deviceId = .ok current ∧
        ∀ grant, grant ∈ current ↔
          grant ∈ granted ∨ (grant ∈ previous ∧ grant.key ∉ granted.map Grant.key)
  otherPeers : ∀ row : PeerRow, row.deviceId ≠ session.peer.deviceId.asStr →
    (row ∈ after.peers.rows ↔ row ∈ before.peers.rows)
  otherGrants : ∀ row : GrantRow, row.peerId ≠ session.peer.deviceId.asStr →
    (row ∈ after.grants.rows ↔ row ∈ before.grants.rows)

/-- Saving the merged grants pairs the peer. -/
theorem pairedWith_of_saved {platform : Platform} {session : Session}
    {granted previous : List Grant} {before after : Database} {now : Int}
    (formed : WellFormed platform session.peer) (distinct : (granted.map Grant.key).Nodup)
    (read : before.grantsOf platform session.peer.deviceId = .ok previous)
    (saved : before.savePairing platform (pairingRecord session now)
      (mergeGrants previous granted) = .ok after) :
    PairedWith platform session granted before after := by
  obtain ⟨-, own, peers, written, rows⟩ := Database.savePairing_eq_ok saved
  refine ⟨⟨_, Database.peer_savePairing saved formed.parsed formed.key, rfl, rfl⟩, ?_, ?_, ?_⟩
  · obtain ⟨current, readBack, same⟩ := Database.grantsOf_savePairing saved formed.parsed
    refine ⟨previous, current, read, readBack, fun grant => ?_⟩
    rw [same, mem_mergeGrants (Database.nodup_grantsOf read) distinct]
  · intro row elsewhere
    rw [peers, Table.mem_upsert]
    constructor
    · rintro (rfl | ⟨stored, -⟩)
      · exact absurd rfl elsewhere
      · exact stored
    · exact fun stored => Or.inr ⟨stored, elsewhere⟩
  · intro row elsewhere
    rw [rows]
    constructor
    · rintro (⟨stored, -⟩ | ⟨grant, member, encoded⟩)
      · exact stored
      · refine absurd ?_ elsewhere
        rw [show session.peer.deviceId = grant.peerId from (own grant member).symm]
        exact congrArg Prod.fst (key_encodeGrant encoded)
    · exact fun stored => Or.inl ⟨stored, elsewhere⟩

/-- A quiet step followed by the rest: if it stops the program, the repository is untouched. -/
theorem wp_quiet_bind {α β : Type} {post : α → Prop} {program : Action α} {next : α → Action β}
    {ends : Except NetworkError β → World → Prop} {database : Database}
    (untouched : world.database = database) (quiet : Quiet post [] program)
    (stopped : ∀ error after, after.database = database → ends (.error error) after)
    (rest : ∀ value after, post value → after.database = database →
      (next value).run.wp self.handle ends after) :
    (program >>= next).run.wp self.handle ends world := by
  refine wp_bind (Program.wp_mono (wp_quiet quiet) ?_)
  rintro result after ⟨known, same⟩
  cases result with
  | error error => exact stopped error after (same.trans untouched)
  | ok value => exact rest value after (known value rfl) (same.trans untouched)

/-- What follows the write of a confirmation: it cannot fail and leaves the repository alone. -/
theorem wp_confirmed {session : Session} {ends : Except NetworkError Unit → World → Prop}
    (finish : ∀ after, after.database = world.database → ends (.ok ()) after) :
    (do
      let _ ← self.rememberAuthenticatedSession session .inbound
      ask .refresh : Action Unit).run.wp self.handle ends world := by
  have quiet : Async.Succeeds unwriting [] (do
      let _ ← self.rememberAuthenticatedSession session .inbound
      ask .refresh : Action Unit) :=
    succeeds_bind (succeeds_rememberAuthenticatedSession (fun _ _ remembers =>
      Call.writes_of_remembers remembers) session .inbound)
      fun _ _ => succeeds_call rfl
  refine Program.wp_mono (wp_quiet quiet) ?_
  rintro result after ⟨⟨_, rfl⟩, same⟩
  exact finish after same

/-- How a confirmation may end: the peer is paired, or the repository is as it was. -/
def ConfirmationEnds (platform : Platform) (session : Session) (granted : List Grant)
    (before : Database) (result : Except NetworkError Unit) (after : World) : Prop :=
  match result with
  | .error _ => after.database = before
  | .ok _ => PairedWith platform session granted before after.database

/-- A confirmation that runs by itself ends so. -/
theorem wp_confirmPairingWithGrants {session : Session} {granted : List Grant}
    (formed : WellFormed self.platform session.peer) (distinct : (granted.map Grant.key).Nodup) :
    (self.confirmPairingWithGrants session granted).run.wp self.handle
      (ConfirmationEnds self.platform session granted world.database) world := by
  have stopped : ∀ error (after : World), after.database = world.database →
      ConfirmationEnds self.platform session granted world.database (.error error) after :=
    fun _ _ same => same
  refine wp_quiet_bind rfl ensures_passed stopped fun _ _ _ same => ?_
  refine wp_quiet_bind same ensures_passed stopped fun _ _ _ same => ?_
  refine wp_quiet_bind same ensures_succeeded stopped fun _ _ _ same => ?_
  refine wp_quiet_bind same (quiet_ask rfl) stopped fun now first _ sameFirst => ?_
  -- The reading of the existing grants: what it returns is what is stored now.
  refine wp_bind (wp_call fun proposal reply second answered => ?_)
  have untouched := handle_database rfl answered
  have stored : World.read proposal (first.database.grantsOf self.platform
      session.peer.deviceId) = reply := by
    cases answered
    rfl
  refine wp_quiet_bind (untouched.trans sameFirst) ensures_succeeded stopped
    fun existing third read same => ?_
  have readStored : world.database.grantsOf self.platform session.peer.deviceId =
      .ok existing := by
    rw [repositoryResult, Except.mapError_eq_ok, ← stored] at read
    rw [← sameFirst]
    exact World.read_eq_ok read
  -- The one write: it fails and changes nothing, or stores the merged grants.
  refine wp_bind (wp_call fun proposal reply fourth answered => ?_)
  rcases World.write_cases (Option.some.inj answered) with
    ⟨⟨error, rfl⟩, rfl⟩ | ⟨value, database, saved, rfl, rfl⟩
  · exact same
  · obtain ⟨stored, kept, pair⟩ := Except.map_eq_ok.mp saved
    cases pair
    rw [same] at kept
    refine wp_confirmed fun after unchanged => ?_
    rw [ConfirmationEnds, unchanged]
    exact pairedWith_of_saved formed distinct readStored kept

/-! ## The whole protocol -/

/-- A pending pairing with one requested grant. -/
def samplePending : PendingPairing where
  session := .sample "bob" "alice" 1 .pairing 7 false
  requested := Table.empty.upsert ((.crossScreenInject, .outbound), .none)

/-- A runtime whose peer approves that grant. -/
def sampleRuntime : Runtime :=
  .sample (.sample [] ⟨some ⟨true, "bob", ""⟩, [⟨"cross_screen.inject", 1, none, 0⟩]⟩) "alice" 1

/-- How `complete_pairing` may end: the peer is paired with grants that were requested, or the
repository is as it was. -/
def PairingEnds (platform : Platform) (pending : PendingPairing) (before : Database)
    (result : Except NetworkError PairingOutcome) (after : World) : Prop :=
  match result with
  | .error _ => after.database = before
  | .ok outcome => outcome.peer = pending.session.peer ∧ Approved pending outcome.granted ∧
      PairedWith platform pending.session outcome.granted before after.database

/-- `complete_pairing` either fails and leaves the repository as it was, or pairs the peer of the
session with grants that were requested. -/
theorem completePairing_confined {pending : PendingPairing} {after : World}
    {result : Except NetworkError PairingOutcome}
    (formed : WellFormed self.platform pending.session.peer)
    (runs : Program.Runs self.handle world (self.completePairing pending).run result after) :
    PairingEnds self.platform pending world.database result after := by
  have stopped : ∀ error (after : World), after.database = world.database →
      PairingEnds self.platform pending world.database (.error error) after :=
    fun _ _ same => same
  refine Program.wp_sound ?_ runs
  have frame : Quiet (fun _ => True) [] (withTimeout (do
      let frame ← ask (.receive pending.session.conn self.platform.maxControlFrameSize)
      Async.ofExcept frame)) :=
    ensures_withTimeout unwriting_monotone (fun _ => rfl) (fun _ _ _ _ => id)
      (ensures_bind (quiet_ask rfl) fun _ _ _ =>
        ensures_succeeded.mono fun _ _ _ => trivial)
  refine wp_quiet_bind rfl frame stopped fun bytes _ _ same => ?_
  refine wp_quiet_bind same ensures_succeeded stopped fun response _ _ same => ?_
  refine wp_quiet_bind same ensures_succeeded stopped fun verdict _ _ same => ?_
  split
  · exact wp_quiet_bind same (quiet_ask rfl) stopped fun _ after _ same => stopped _ after same
  · refine wp_quiet_bind same (ensures_approveGrants (fun _ => rfl) pending _ []) stopped
      fun granted first known sameFirst => ?_
    have approved := known.1
    refine wp_bind (Program.wp_mono (wp_confirmPairingWithGrants formed approved.distinct) ?_)
    intro confirmed second ends
    rw [sameFirst] at ends
    cases confirmed with
    | error error => exact ends
    | ok value =>
      refine wp_bind (wp_call fun proposal reply third answered => ?_)
      refine ⟨rfl, approved, ?_⟩
      rw [handle_database rfl answered]
      exact ends

/-- The peer approves the one grant that was asked for, and is paired with it. -/
theorem completePairing_confined_approved :
    ∃ after, PairingEnds sampleRuntime.platform samplePending Database.empty
      (.ok ⟨samplePending.session.peer, [⟨⟨"bob"⟩, .crossScreenInject, .outbound, .none, 0⟩]⟩)
      after := by
  have evaluated : ∃ moments after, Program.eval sampleRuntime.handle (fun _ => Call.smooth) 0
      (sampleRuntime.completePairing samplePending).run (World.fresh .empty) =
        some (moments, .ok ⟨samplePending.session.peer,
          [⟨⟨"bob"⟩, .crossScreenInject, .outbound, .none, 0⟩]⟩, after) := ⟨_, _, rfl⟩
  obtain ⟨moments, after, evaluated⟩ := evaluated
  exact ⟨after, completePairing_confined ⟨rfl, rfl⟩ (Program.runs_of_eval evaluated)⟩

end Runtime

end ArcRelay
