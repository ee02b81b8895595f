import ArcRelay.Verif.Forgetting

/-!
# Revoking the right to inject input

`revoke` deletes the grant and then disconnects the peer. `accept_input_relay`
asks for the grant, awaits, and registers its session. A revocation ends every
input relay of its source in every interleaving in which such a relay is
registered only while the grant is stored. The code does not ask again when it
registers, so a relay that was authorized before the revocation can appear after
it.
-/

namespace ArcRelay

/-- An input relay that the source has dialled. -/
def RelaysFrom (source : DeviceId) (session : Session) : Prop :=
  session.isRelayed = true ∧ session.kind = .realtimeInput ∧ session.peer.deviceId = source ∧
    session.rank.initiatorId = source

instance (source : DeviceId) (session : Session) : Decidable (RelaysFrom source session) :=
  inferInstanceAs (Decidable (_ ∧ _))

/-- The grant that lets the source inject input here. -/
def Injects (source : DeviceId) (grant : Grant) : Prop :=
  grant.peerId = source ∧ grant.capability = .crossScreenInject ∧ grant.direction = .inbound

instance (source : DeviceId) (grant : Grant) : Decidable (Injects source grant) :=
  inferInstanceAs (Decidable (_ ∧ _))

/-- The columns of the grant's key. -/
def injectColumns (platform : Platform) (source : DeviceId) : String × String × Int :=
  (source.asStr, platform.token .crossScreenInject, encodeDirection .inbound)

/-- The grant is stored. -/
def Granted (platform : Platform) (source : DeviceId) (world : World) : Prop :=
  ∃ row ∈ world.database.grants.rows, row.key = injectColumns platform source

instance (platform : Platform) (source : DeviceId) (world : World) :
    Decidable (Granted platform source world) :=
  inferInstanceAs (Decidable (∃ row ∈ world.database.grants.rows, _))

/-- The grants a call is to store. -/
def Call.toGrant : Call → List Grant
  | .savePairing _ all => all
  | .saveGrant grant => [grant]
  | _ => []

/-- The revocation of the grant. -/
abbrev revocation (source : DeviceId) : Operation := .revoke source .crossScreenInject .inbound

/-- A call that respects a revocation: an input relay of the source is registered only while the
grant is stored, and the grant is not stored while it is being revoked. -/
def RespectsRevocation (platform : Platform) (source : DeviceId)
    (pool : Jobs) (call : Call) : Prop :=
  (∀ session ∈ call.toRegister, RelaysFrom source session → Granted platform source pool.world) ∧
    ((∃ grant ∈ call.toGrant, Injects source grant) → ∀ job ∈ pool.jobs,
      job.operation = revocation source → ¬ System.UnderWay job)

instance (platform : Platform) (source : DeviceId) (pool : Jobs)
    (call : Call) : Decidable (RespectsRevocation platform source pool call) :=
  inferInstanceAs (Decidable (_ ∧ _))

/-- No input relay of the source is registered. -/
def WithoutRelay (source : DeviceId) (world : World) : Prop :=
  ∀ key entry, world.registry.sessions key = some entry → ¬ RelaysFrom source entry.session

/-- Every revocation of the grant that has returned has ended the source's relays: until the grant
is stored again, none is registered, and none was published. -/
def RelaysEnded (source : DeviceId) (pool : Jobs) : Prop :=
  ∀ index later, System.outcome pool index = some (revocation source, .flag (.ok true)) →
    System.CallsSince pool.history index later →
      (∀ entry ∈ later, ∀ grant ∈ storedGrants entry.moment, ¬ Injects source grant) →
        WithoutRelay source pool.world ∧
          ∀ entry ∈ later, ∀ session, published entry.moment = some session →
            ¬ RelaysFrom source session

theorem mem_toGrant_of_stored {moment : Moment} {grant : Grant}
    (stored : grant ∈ storedGrants moment) : grant ∈ moment.call.toGrant := by
  obtain ⟨world, call, reply⟩ := moment
  cases call
  case savePairing record grants =>
    cases reply with
    | error error => cases stored
    | ok value => exact stored
  case saveGrant other =>
    cases reply with
    | error error => cases stored
    | ok value => exact stored
  all_goals cases stored

theorem injects_of_columns {platform : Platform} {source : DeviceId} {grant : Grant}
    (same : grantColumns platform grant = injectColumns platform source) :
    Injects source grant := by
  have columns : grantColumns platform grant =
      grantColumns platform ⟨source, .crossScreenInject, .inbound, .none, 0⟩ := same
  obtain ⟨peer, key⟩ := grantColumns_inj.mp columns
  exact ⟨peer, congrArg Prod.fst key, congrArg Prod.snd key⟩

namespace Runtime

variable {self : Runtime} {world after : World} {call : Call} {proposal reply : Call.Reply call}

/-- Once the grant is gone it stays away until it is stored again. -/
theorem ungranted_handle {source : DeviceId} (absent : ¬ Granted self.platform source world)
    (answered : self.handle world call proposal = some (reply, after))
    (unstored : ∀ grant ∈ storedGrants ⟨world, call, reply⟩, ¬ Injects source grant) :
    ¬ Granted self.platform source after := by
  rintro ⟨row, member, named⟩
  rcases handle_grants answered member with before | ⟨grant, stored, same⟩
  · exact absent ⟨row, before, named⟩
  · exact unstored grant stored (injects_of_columns (same.symm.trans named))

theorem withoutRelay_handle {source : DeviceId} (clean : WithoutRelay source world)
    (unregistered : ∀ session ∈ call.toRegister, ¬ RelaysFrom source session)
    (answered : self.handle world call proposal = some (reply, after)) :
    WithoutRelay source after := by
  intro key entry found
  by_cases registers : ∃ session publish, call = .register session publish
  · obtain ⟨session, publish, rfl⟩ := registers
    rcases (handle_register answered).entries found with before | ⟨-, same⟩
    · exact clean key entry before
    · rw [same]
      exact unregistered session rfl
  · exact clean key entry (handle_recedes
      (fun session publish same => registers ⟨session, publish, same⟩) answered key entry found)

theorem withoutRelay_disconnect {source : DeviceId} {reason : String}
    {proposal reply : Call.Reply (.disconnect source reason)}
    (answered : self.handle world (.disconnect source reason) proposal = some (reply, after)) :
    WithoutRelay source after := by
  intro key entry found relays
  have keyed := after.registry.keyed key entry found
  cases answered
  have named : key.1 = source := by rw [← keyed]; exact relays.2.2.1
  simp [Registry.disconnect, named] at found

/-- `revoke` disconnects after it has deleted the grant, and returns `true` after that. -/
theorem stages_revoke (source : DeviceId) :
    (self.program (revocation source)).Ensures
      (⟨fun past call => (∃ reason, call = .disconnect source reason) →
        ∃ moment ∈ past, ∃ world,
          moment = ⟨world, .revokeGrant source .crossScreenInject .inbound, .ok true⟩,
        fun _ _ => True⟩ : Program.Contract World Call.Reply)
      (fun past value => value = .flag (.ok true) →
        ∃ before last, past = before ++ [last] ∧ ∃ reason, last.call = .disconnect source reason)
      [] := by
  refine ⟨nofun, fun deleted reply _ => ?_⟩
  cases reply with
  | error error =>
    intro same
    cases same
  | ok revoked =>
    cases revoked with
    | false =>
      intro same
      cases same
    | true =>
      refine ⟨fun _ => ?_, fun ended reply _ _ => ?_⟩
      · exact ⟨⟨deleted, .revokeGrant source .crossScreenInject .inbound, .ok true⟩, by simp,
          deleted, rfl⟩
      · exact ⟨_, ⟨ended, .disconnect source "authorization changed", reply⟩, rfl, _, rfl⟩

/-- Revoking withdraws the permission the grant is. -/
def revoking (self : Runtime) (source : DeviceId) : Withdrawal self.system where
  withdraws operation := operation = revocation source
  succeeded value := value = .flag (.ok true)
  revokes moment := ∃ world,
    moment = ⟨world, .revokeGrant source .crossScreenInject .inbound, .ok true⟩
  clears call := ∃ reason, call = .disconnect source reason
  mayRestore call := ∃ grant ∈ call.toGrant, Injects source grant
  restores moment := ∃ grant ∈ storedGrants moment, Injects source grant
  absent world := ¬ Granted self.platform source world
  clean := WithoutRelay source
  admissible world call :=
    ∀ session ∈ call.toRegister, RelaysFrom source session → Granted self.platform source world
  programs := by
    rintro operation rfl
    exact stages_revoke source
  restoring := by
    rintro moment ⟨grant, stored, injects⟩
    exact ⟨grant, mem_toGrant_of_stored stored, injects⟩
  revoked := by
    rintro world call proposal reply after answered ⟨before, same⟩
    cases same
    rintro ⟨row, member, named⟩
    rcases World.write_cases (Option.some.inj answered) with ⟨⟨error, failed⟩, -⟩ |
      ⟨value, database, saved, -, rfl⟩
    · cases failed
    · cases saved
      exact (of_decide_eq_false (Table.mem_deleteWhere.mp member).2) named
  remains := by
    intro world call proposal reply after absent _ answered unrestored
    exact ungranted_handle absent answered fun grant stored injects =>
      unrestored ⟨grant, stored, injects⟩
  cleared := by
    rintro world call proposal reply after ⟨reason, rfl⟩ answered
    have ended : self.handle world (.disconnect source reason) proposal = some (reply, after) :=
      answered
    exact withoutRelay_disconnect ended
  stays := by
    intro world call proposal reply after absent clean admissible answered
    exact withoutRelay_handle clean (fun session registers relays =>
      absent (admissible session registers relays)) answered
  undisturbed := by
    intro world event absent
    simpa only [system, Granted, World.disturb_database] using absent
  unbuilt := by
    intro world event clean key entry found
    exact clean key entry (World.disturb_recedes world event key entry found)

/-- In a run in which every step respects revocations, a revocation that has returned `true` ends
the input relays of its source until the grant is stored again. -/
theorem revoked_relays_ended (self : Runtime) (source : DeviceId) (database : Database)
    {inputs : Inputs}
    (respects : Run.Along self.system.step (System.initial (World.fresh database))
      (fun pool input => ∀ request, System.Next pool input request →
        RespectsRevocation self.platform source pool request) inputs) :
    Run.Throughout self.system.step (System.initial (World.fresh database)) (RelaysEnded source)
      inputs := by
  have achieved : Run.Throughout self.system.step (System.initial (World.fresh database))
      (self.revoking source).Achieved inputs :=
    Withdrawal.achieved_run respects
  intro done isPrefix index later outcome since unrestored
  obtain ⟨job, found, revokes, returned⟩ := System.outcome_eq_some outcome
  obtain ⟨-, clean, barred⟩ := (achieved done isPrefix).since index job _ later found revokes
    returned rfl since fun entry member ⟨grant, stored, injects⟩ =>
      unrestored entry member grant stored injects
  refine ⟨clean, fun entry member session shown relays => ?_⟩
  -- a published session was registered before or is being registered, and both are barred
  have bar := barred entry member
  obtain ⟨index, operation, world, call, reply⟩ := entry
  obtain ⟨proposal, after, answered⟩ := bar.answered
  obtain ⟨registered, publish, rfl, -, origin⟩ := published_of_handle answered shown
  rcases origin with rfl | ⟨entry, present, rfl⟩
  · exact bar.absent (bar.admissible session rfl relays)
  · exact bar.clean _ entry present relays

/-! ## Concrete runs -/

/-- An answer of the authorization service, asked for the right to inject input, is the stored
one. -/
def consulted (platform : Platform) : Moment → Bool
  | ⟨world, .authorize source .crossScreenInject, reply⟩ =>
    reply.isOk == decide (Granted platform source world)
  | _ => true

/-- Bob is paired with the right to inject input and opens an input relay; after so many calls of
`accept_input_relay` the right is revoked, then the relay goes on. Its forty-second call registers
the session. -/
def revokeRun (before : Nat) : Inputs :=
  List.flatten [
    [.start (.confirmPairing (.sample "bob" "bob" 0 .pairing 7 false)
        [⟨⟨"bob"⟩, .crossScreenInject, .inbound, .none, 0⟩]),
      .start (.acceptInputRelay ⟨"bob"⟩), .start (revocation ⟨"bob"⟩)],
    resumes 0 (fun _ => Call.smooth) 0 8,
    resumes 1 (arriving .realtimeInput 8 24) 0 before,
    resumes 2 (fun _ => Call.smooth) 0 2,
    resumes 1 (arriving .realtimeInput 8 24) before (43 - before)]

/-- The pool after it. -/
def revokePool (before : Nat) : Jobs :=
  Run.exec (accepting .realtimeInput).system.step (System.initial (World.fresh .empty))
    (revokeRun before)

/-- Bob's relay is registered and the right is then revoked: the relay is gone. -/
theorem revoked_relays_ended_registered :
    (((Run.exec (accepting .realtimeInput).system.step (System.initial (World.fresh .empty))
      ((revokeRun 43).take 54)).world.registry.sessions (⟨"bob"⟩, .realtimeInput)).any fun entry =>
        RelaysFrom ⟨"bob"⟩ entry.session) = true ∧
    WithoutRelay ⟨"bob"⟩ (revokePool 43).world := by
  obtain ⟨registered, returned, made, ungranted⟩ :
      (((Run.exec (accepting .realtimeInput).system.step (System.initial (World.fresh .empty))
        ((revokeRun 43).take 54)).world.registry.sessions (⟨"bob"⟩, .realtimeInput)).any
        fun entry =>
          RelaysFrom ⟨"bob"⟩ entry.session) = true ∧
      System.outcome (revokePool 43) 2 = some (revocation ⟨"bob"⟩, .flag (.ok true)) ∧
      (∃ entry ∈ (revokePool 43).history, entry.index = 2) ∧
      ∀ entry ∈ System.since (revokePool 43).history 2, ∀ grant ∈ storedGrants entry.moment,
        ¬ Injects ⟨"bob"⟩ grant := by
    decide +kernel
  refine ⟨registered, ?_⟩
  have every := revoked_relays_ended (accepting .realtimeInput) ⟨"bob"⟩ .empty
    (show Run.Along _ _ (fun pool input => ∀ request, System.Next pool input request →
      RespectsRevocation _ ⟨"bob"⟩ pool request) (revokeRun 43) by decide +kernel)
  have ended : RelaysEnded ⟨"bob"⟩ (revokePool 43) := every (revokeRun 43) (List.prefix_refl _)
  exact (ended 2 _ returned (System.callsSince_since made) ungranted).1

/-- Bob's right is revoked between its check and the registration of the relay, and the
authorization service has answered truly: the relay is registered, open and published. -/
theorem revoked_relay_enters :
    ((revokePool 41).history.all fun entry =>
      consulted (pairPlatform .realtimeInput) entry.moment) = true ∧
    (((revokePool 41).world.registry.sessions (⟨"bob"⟩, .realtimeInput)).any fun entry =>
      decide (RelaysFrom ⟨"bob"⟩ entry.session) &&
        (revokePool 41).world.registry.isOpen entry.connection) = true ∧
    ((System.since (revokePool 41).history 2).any fun entry =>
      (published entry.moment).any fun session => RelaysFrom ⟨"bob"⟩ session) = true ∧
    ¬ RelaysEnded ⟨"bob"⟩ (revokePool 41) := by
  obtain ⟨truly, registered, entered, returned, made, ungranted⟩ :
      ((revokePool 41).history.all fun entry =>
        consulted (pairPlatform .realtimeInput) entry.moment) = true ∧
      (((revokePool 41).world.registry.sessions (⟨"bob"⟩, .realtimeInput)).any fun entry =>
        decide (RelaysFrom ⟨"bob"⟩ entry.session) &&
          (revokePool 41).world.registry.isOpen entry.connection) = true ∧
      ((System.since (revokePool 41).history 2).any fun entry =>
        (published entry.moment).any fun session => RelaysFrom ⟨"bob"⟩ session) = true ∧
      System.outcome (revokePool 41) 2 = some (revocation ⟨"bob"⟩, .flag (.ok true)) ∧
      (∃ entry ∈ (revokePool 41).history, entry.index = 2) ∧
      ∀ entry ∈ System.since (revokePool 41).history 2, ∀ grant ∈ storedGrants entry.moment,
        ¬ Injects ⟨"bob"⟩ grant := by
    decide +kernel
  refine ⟨truly, registered, entered, fun ended => ?_⟩
  have clean := (ended 2 _ returned (System.callsSince_since made) ungranted).1
  obtain ⟨entry, found, relays⟩ := (Option.any_eq_true _ _).mp registered
  simp only [Bool.and_eq_true, decide_eq_true_eq] at relays
  exact clean _ entry found relays.1

end Runtime

end ArcRelay
