import ArcRelay.Verif.Loopback
import ArcRelay.Verif.Revocation

/-!
# Which sessions are published

The accept loop publishes a session only if `register_session` returned that very one, but
`accept_input_relay` publishes whatever it returned. Where the registry has nothing against
a relay that is accepted, every session that is published is one that the publishing task
has accepted itself: no session is published twice, and none that the local device opened.
-/

namespace ArcRelay

/-- Every session is published once at most, and none that the local device has opened. -/
structure PublishedExactly (runtime : Runtime) (history : History) : Prop where
  once : history.Pairwise fun first second => ∀ session ∈ published first.moment,
    ∀ other ∈ published second.moment, session.conn ≠ other.conn
  foreign : ∀ entry ∈ history, ∀ session ∈ published entry.moment,
    session.rank.initiatorId ≠ runtime.deviceId

/-- The session that `accept_input_relay` registers. -/
def Call.acceptsRelay : Call → Option Session
  | .register session .always => some session
  | _ => none

/-- The registry has nothing against a relay that is accepted: the entry under its key, if there is
one, neither retires its process nor is a session in use that is kept over it. -/
def Unopposed (moment : Moment) : Prop :=
  ∀ session ∈ moment.call.acceptsRelay, ∀ current ∈ moment.world.registry.sessions session.key,
    Registry.retires current session = false ∧
      (Registry.displaced current session = none →
        moment.world.registry.handles current.connection = true →
          moment.world.registry.isOpen current.connection = true →
            Registry.keepsActive current.session session = false)

instance (moment : Moment) : Decidable (Unopposed moment) :=
  inferInstanceAs (Decidable (∀ session ∈ moment.call.acceptsRelay,
    ∀ current ∈ moment.world.registry.sessions session.key, _ ∧ _))

namespace Runtime

variable {self : Runtime} {index : Nat} {operation : Operation} {history : History}
  {world after : World} {session : Session}

variable {publish : Publish}

/-- A session that an operation publishes was opened by the peer, and is the first one the operation
registers, on a connection it has accepted itself. -/
theorem accepted_of_registers (published : publish ≠ .never)
    (registers : Registers self (System.momentsOf history index) operation session publish) :
    session.rank.initiatorId ≠ self.deviceId ∧ Unregistered (System.momentsOf history index) ∧
      ∃ entry ∈ history, entry.index = index ∧ openedBy entry.moment = some session.connection ∧
        ∀ address recovery, entry.moment.call ≠ .connect address recovery := by
  cases registers with
  | incoming seenAt connection _ opened inbound first =>
    obtain ⟨entry, member, own, made⟩ := mem_history_of_past opened
    refine ⟨inbound.initiator ▸ inbound.other, first, entry, member, own, ?_, ?_⟩
    · rw [made, inbound.connection]
      rfl
    · rw [made]
      exact nofun
  | accepted source seenAt tunnel connection plain opened inbound kind first =>
    obtain ⟨entry, member, own, made⟩ := mem_history_of_past opened
    refine ⟨inbound.initiator ▸ inbound.other, first, entry, member, own, ?_, ?_⟩
    · rw [made, ← inbound.connection]
      rfl
    · rw [made]
      exact nofun
  | relayed => exact absurd rfl published
  | dialled => exact absurd rfl published

/-- A session that an operation publishes is on another connection than all that were registered
before. -/
theorem conn_ne_of_registered (guaranteed : self.conduct.Guaranteed history)
    (traced : Traced self history world) (once : OpenedOnce history) (published : publish ≠ .never)
    (registers : Registers self (System.momentsOf history index) operation session publish)
    {other : Session} (registered : RegisteredIn history other) : other.conn ≠ session.conn := by
  intro same
  obtain ⟨-, first, opening, member, own, opens, undialled⟩ :=
    accepted_of_registers published registers
  obtain ⟨registering, present, registersToo, second, there, opened⟩ :=
    opening_of_registered guaranteed traced registered
  obtain rfl := once.unique there member opened.opens opens same
  rcases opened.opener with sameJob | ⟨address, recovery, dials⟩
  · have unregistered := first registering.moment
      (System.mem_momentsOf.mpr ⟨registering, present, sameJob.symm.trans own, rfl⟩)
    exact absurd (unregistered.symm.trans registersToo) (by simp)
  · exact undialled address recovery dials

/-- A registration is published by `accept_input_relay`, or by the accept loop if it returned a
session on the same connection. -/
theorem publishes_of_handle {returned : Session} {proposal : Except NetworkError Session × Bool}
    (answered : self.handle world (.register session publish) proposal =
      some ((.ok returned, true), after)) :
    publish = .always ∨ publish = .ifSame ∧ returned.conn = session.conn := by
  have reply := congrArg Prod.fst (Option.some.inj answered)
  have result : (world.registry.registerSession session).1 = .ok returned := congrArg Prod.fst reply
  have sent := congrArg Prod.snd reply
  cases publish with
  | never => exact absurd sent (by simp [World.register])
  | ifSame =>
    have both : (returned.conn == session.conn && proposal.2) = true := by
      simpa [World.register, result] using sent
    exact .inr ⟨rfl, eq_of_beq (Bool.and_eq_true_iff.mp both).1⟩
  | always => exact .inl rfl

/-- What is published is the session that the operation registers. -/
theorem own_of_published (guaranteed : self.conduct.Guaranteed history)
    (traced : Traced self history world) (once : OpenedOnce history) {returned : Session}
    {proposal : Except NetworkError Session × Bool}
    (registers : Registers self (System.momentsOf history index) operation session publish)
    (answered : self.handle world (.register session publish) proposal =
      some ((.ok returned, true), after))
    (unopposed : Unopposed ⟨world, .register session publish, (.ok returned, true)⟩) :
    publish ≠ .never ∧ returned = session := by
  have publishes := publishes_of_handle answered
  have shown : publish ≠ .never := by
    rcases publishes with rfl | ⟨rfl, -⟩ <;> decide
  refine ⟨shown, ?_⟩
  -- An entry of the registry is on another connection, so only a relay could be handed its session.
  have apart : ∀ current, world.registry.sessions session.key = some current →
      current.connection ≠ session.conn := fun current found =>
    conn_ne_of_registered guaranteed traced once shown registers (traced.held _ current found)
  have always : ∀ current, world.registry.sessions session.key = some current →
      returned = current.session → publish = .always := by
    rintro current found rfl
    exact publishes.resolve_right fun same => apart current found same.2
  have registration := handle_register answered
  generalize after.registry = registry at registration
  generalize outcome : (.ok returned : Except NetworkError Session) = result at registration
  cases registration with
  | fresh => exact Except.ok.inj outcome
  | obsolete current found retired _ origin =>
    obtain rfl := always current found (origin returned outcome.symm)
    exact absurd ((unopposed session rfl current found).1.symm.trans retired) Bool.noConfusion
  | same current found admitted held identical => exact absurd identical (apart current found)
  | kept current found admitted held different opened undisplaced preferred =>
    obtain rfl := always current found (Except.ok.inj outcome)
    have yields := (unopposed session rfl current found).2 undisplaced held opened
    exact absurd (yields.symm.trans preferred) Bool.noConfusion
  | replaced => exact Except.ok.inj outcome

/-- What is known after a history in which no relay that is accepted is opposed. -/
structure OwnPublished (runtime : Runtime) (history : History) (world : World) : Prop where
  traced : Traced runtime history world
  once : OpenedOnce history
  own : ∀ entry ∈ history, ∀ session ∈ published entry.moment,
    ∃ publish, entry.moment.call = .register session publish
  exact : PublishedExactly runtime history

/-- One call keeps publication exact. -/
theorem ownPublished_call {call : Call} {proposal reply : call.Reply}
    (guaranteed : self.conduct.Guaranteed history) (kept : OwnPublished self history world)
    (proper : Proper self operation (System.momentsOf history index) call)
    (answered : self.handle world call proposal = some (reply, after))
    (new : OpensNew history ⟨world, call, reply⟩) (unopposed : Unopposed ⟨world, call, reply⟩) :
    OwnPublished self (history ++ [⟨index, operation, ⟨world, call, reply⟩⟩]) after := by
  have now : ∀ returned ∈ published ⟨world, call, reply⟩, ∃ publish,
      publish ≠ Publish.never ∧ call = .register returned publish ∧
        Registers self (System.momentsOf history index) operation returned publish := by
    intro returned shown
    obtain ⟨session, publish, rfl, -⟩ := published_of_handle answered shown
    obtain ⟨result, sent⟩ := reply
    cases result with
    | error error => cases shown
    | ok other =>
      cases sent with
      | false => cases shown
      | true =>
        cases shown
        obtain ⟨publishes, rfl⟩ :=
          own_of_published guaranteed kept.traced kept.once proper answered unopposed
        exact ⟨publish, publishes, rfl, proper⟩
  refine ⟨traced_call kept.traced proper answered, kept.once.concat new, ?_, ?_, ?_⟩
  · intro entry member session shown
    rcases List.mem_concat_iff.mp member with earlier | last
    · exact kept.own entry earlier session shown
    · rw [last] at shown ⊢
      obtain ⟨publish, -, made, -⟩ := now session shown
      exact ⟨publish, made⟩
  · refine List.pairwise_append.mpr ⟨kept.exact.once, List.pairwise_singleton _ _, ?_⟩
    intro first earlier second last session shown other shownNow
    rw [List.mem_singleton.mp last] at shownNow
    obtain ⟨publish, publishes, -, registers⟩ := now other shownNow
    exact conn_ne_of_registered guaranteed kept.traced kept.once publishes registers
      ⟨first, earlier, kept.own first earlier session shown⟩
  · intro entry member session shown
    rcases List.mem_concat_iff.mp member with earlier | last
    · exact kept.exact.foreign entry earlier session shown
    · rw [last] at shown
      obtain ⟨publish, publishes, -, registers⟩ := now session shown
      exact (accepted_of_registers publishes registers).1

/-- In a run in which connections are told apart and the registry has nothing against the relays
that are accepted, every session is published once at most, and none that the local device has
opened. -/
theorem published_exactly (self : Runtime) (database : Database) {inputs : Inputs}
    (meets : Run.Along self.system.step (System.initial (World.fresh database))
      (self.system.Meets fun history moment => OpensNew history moment ∧ Unopposed moment)
      inputs) :
    Run.Throughout self.system.step (System.initial (World.fresh database))
      (fun pool => PublishedExactly self pool.history) inputs := by
  have kept := self.conduct.invariant_run (OwnPublished self)
    ⟨traced_fresh database, List.Pairwise.nil, fun _ absent => absurd absent List.not_mem_nil,
      List.Pairwise.nil, fun _ absent => absurd absent List.not_mem_nil⟩
    (fun guaranteed holds proper answered met =>
      ownPublished_call guaranteed holds proper answered met.1 met.2)
    (fun event holds => ⟨traced_disturb holds.traced event, holds.once, holds.own, holds.exact⟩)
    meets
  exact fun done isPrefix => (kept done isPrefix).2.exact

/-! ## Concrete runs -/

/-- A relay is accepted with nothing against it, and its session is published. -/
theorem published_exactly_relay :
    ((revokePool 43).history.any fun entry => (published entry.moment).isSome) = true ∧
      PublishedExactly (accepting .realtimeInput) (revokePool 43).history := by
  obtain ⟨shown, meets⟩ :
      ((revokePool 43).history.any fun entry => (published entry.moment).isSome) = true ∧
      Run.Along (accepting .realtimeInput).system.step (System.initial (World.fresh .empty))
        ((accepting .realtimeInput).system.Meets fun history moment =>
          OpensNew history moment ∧ Unopposed moment) (revokeRun 43) := by
    decide +kernel
  exact ⟨shown, published_exactly (accepting .realtimeInput) .empty meets (revokeRun 43)
    (List.prefix_refl _)⟩

/-- Bob is paired. Alice connects to Bob through a relay, and then accepts a relay from Bob. -/
def crossingRun : Inputs :=
  List.flatten [
    [.start (.confirmPairing (.sample "bob" "bob" 0 .pairing 7 false)
        [⟨⟨"bob"⟩, .crossScreenInject, .inbound, .none, 0⟩]),
      .start (.connectInputRelay ⟨"bob"⟩), .start (.acceptInputRelay ⟨"bob"⟩)],
    resumes 0 (fun _ => Call.smooth) 0 8,
    resumes 1 (fromProcess 7 (runConnection 0) 15 21) 0 38,
    resumes 2 (fromProcess 7 (runConnection 1) 8 24) 0 42]

/-- Alice after it. -/
def crossingPool : Jobs :=
  (sample processPlatform "alice" 1).after .empty crossingRun

/-- The relay that is accepted loses against the one Alice has opened, which is published. -/
theorem own_relay_published :
    Run.Along (sample processPlatform "alice" 1).system.step (System.initial (World.fresh .empty))
      ((sample processPlatform "alice" 1).system.Meets OpensNew) crossingRun ∧
    ¬ PublishedExactly (sample processPlatform "alice" 1) crossingPool.history := by
  obtain ⟨told, shown⟩ :
      Run.Along (sample processPlatform "alice" 1).system.step (System.initial (World.fresh .empty))
        ((sample processPlatform "alice" 1).system.Meets OpensNew) crossingRun ∧
      (∃ entry ∈ crossingPool.history, ∃ session ∈ published entry.moment,
        session.rank.initiatorId = (sample processPlatform "alice" 1).deviceId) := by
    decide +kernel
  refine ⟨told, fun exact => ?_⟩
  obtain ⟨entry, member, session, published, initiator⟩ := shown
  exact exact.foreign entry member session published initiator

end Runtime

end ArcRelay
