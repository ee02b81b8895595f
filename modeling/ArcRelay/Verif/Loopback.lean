import ArcRelay.Verif.Gates
import ArcRelay.Verif.Provenance

/-!
# The addresses of relays stay private

The relay paths remember nothing, but a dial remembers whatever session `register_session`
hands back. Of the branches of `register_session` only one can hand a relayed session to a
direct dial: the one for a process the entry has retired. As long as the session of such an
entry is direct, no address of a relayed connection reaches discovery or the endpoints.
-/

namespace ArcRelay

open System (momentsOf mem_momentsOf)

/-- A call passes an address on, to the discovery service or to the endpoint repository. -/
def Call.passesAddress : Call → Bool
  | .observeAuthenticated _ | .recordAuthenticated _ _ _ _ => true
  | _ => false

/-- The address that a call passes on is that of a session's connection. -/
def Call.Carries (call : Call) (session : Session) : Prop :=
  (∃ now, call = .observeAuthenticated (Runtime.sessionAdvertisement session now)) ∨
    ∃ id certificateSha256 source,
      call = .recordAuthenticated id (Runtime.dialAddress session) certificateSha256 source

/-- A session that is not relayed, on a connection that no tunnel has. -/
structure Direct (history : History) (session : Session) : Prop where
  untunnelled : session.isRelayed = false
  apart : ∀ entry ∈ history, entry.moment.call.tunnels = true →
    ∀ connection ∈ openedBy entry.moment, connection.stableId ≠ session.conn

/-- An operation passes on the address of a session it has to do with. -/
def PassesOn (self : Runtime) (history : History)
    (entry : Record) (session : Session) : Prop :=
  entry.moment.call.Carries session ∧
    Remembers self (momentsOf history entry.index) entry.operation session

/-- Every call that passes an address on, whichever operation makes it, passes on the address of a
direct session of that operation, and of no other session. A pairing is confirmed for a session that
the runtime has handed out. -/
def LoopbackPrivate (self : Runtime) (history : History) : Prop :=
  ∀ entry ∈ history, entry.moment.call.passesAddress = true →
    (∀ session, entry.operation.confirms = some session → RegisteredIn history session) →
      (∃ session, PassesOn self history entry session ∧ Direct history session) ∧
        ∀ session, PassesOn self history entry session → Direct history session

/-- When a direct session is registered for a process the entry has retired, the entry's session is
direct. -/
def KeepsDirect (moment : Moment) : Prop :=
  ∀ session ∈ moment.call.toRegister, session.isRelayed = false →
    ∀ current ∈ moment.world.registry.sessions session.key,
      Registry.retires current session = true → current.session.isRelayed = false

instance (moment : Moment) : Decidable (KeepsDirect moment) :=
  inferInstanceAs (Decidable (∀ session ∈ moment.call.toRegister, session.isRelayed = false →
    ∀ current ∈ moment.world.registry.sessions session.key,
      Registry.retires current session = true → current.session.isRelayed = false))

/-- Registering a direct session has returned a direct one. -/
def ReturnsDirect (history : History) : Prop :=
  ∀ entry ∈ history, ∀ seenAt session publish registered sent,
    entry.moment = ⟨seenAt, .register session publish, (.ok registered, sent)⟩ →
      session.isRelayed = false → registered.isRelayed = false

theorem unrelayed_of_keepsActive {active session : Session}
    (kept : Registry.keepsActive active session = true) (direct : session.isRelayed = false) :
    active.isRelayed = false := by
  cases relayed : active.isRelayed with
  | false => rfl
  | true => simp [Registry.keepsActive, direct, relayed] at kept

namespace Runtime

variable {self : Runtime} {index : Nat} {operation : Operation} {history : History}
  {world after : World}

variable {session : Session}

/-- A session that is not relayed and was registered is on a connection that no tunnel has. -/
theorem direct_of_registered (guaranteed : self.conduct.Guaranteed history)
    (traced : Traced self history world) (once : OpenedOnce history)
    (registered : RegisteredIn history session) (unrelayed : session.isRelayed = false) :
    Direct history session := by
  obtain ⟨_, _, _, opening, member, opened⟩ := opening_of_registered guaranteed traced registered
  refine ⟨unrelayed, fun entry present tunnels connection opensToo same => ?_⟩
  obtain rfl := once.unique present member opensToo opened.opens same
  exact absurd ((tunnels.symm.trans opened.tunnelled.symm).trans unrelayed) Bool.noConfusion

/-- A direct session that is registered is on another connection than a relayed one. -/
theorem unrelayed_of_sameConnection (guaranteed : self.conduct.Guaranteed history)
    (traced : Traced self history world) (once : OpenedOnce history) {other : Session}
    {publish : Publish}
    (registers : Registers self (momentsOf history index) operation session publish)
    (registered : RegisteredIn history other) (same : other.conn = session.conn)
    (direct : session.isRelayed = false) : other.isRelayed = false := by
  obtain ⟨opening, member, opened⟩ := opening_of_registers traced (List.Subset.refl _) registers
  obtain ⟨_, _, _, second, present, openedToo⟩ := opening_of_registered guaranteed traced registered
  obtain rfl := once.unique present member openedToo.opens opened.opens same
  rw [openedToo.tunnelled, ← opened.tunnelled, direct]

/-- Registering a direct session returns a direct one. -/
theorem unrelayed_register (guaranteed : self.conduct.Guaranteed history)
    (traced : Traced self history world) (once : OpenedOnce history) {registered : Session}
    {publish : Publish} {sent : Bool} {proposal : Except NetworkError Session × Bool}
    (registers : Registers self (momentsOf history index) operation session publish)
    (answered : self.handle world (.register session publish) proposal =
      some ((.ok registered, sent), after))
    (keeps : KeepsDirect ⟨world, .register session publish, (.ok registered, sent)⟩)
    (direct : session.isRelayed = false) : registered.isRelayed = false := by
  have registration := handle_register answered
  generalize after.registry = registry at registration
  generalize outcome : (.ok registered : Except NetworkError Session) = result at registration
  cases registration with
  | fresh => exact Except.ok.inj outcome ▸ direct
  | obsolete current found retired _ returned =>
    rw [returned registered outcome.symm]
    exact keeps session rfl direct current found retired
  | same current found admitted held identical =>
    rw [Except.ok.inj outcome]
    exact unrelayed_of_sameConnection guaranteed traced once registers
      (traced.held _ current found) identical direct
  | kept current found admitted held different opened undisplaced preferred =>
    rw [Except.ok.inj outcome]
    exact unrelayed_of_keepsActive preferred direct
  | replaced => exact Except.ok.inj outcome ▸ direct

/-- What is known after a history whose steps keep direct sessions direct. -/
structure DirectKept (runtime : Runtime) (history : History) (world : World) : Prop where
  traced : Traced runtime history world
  once : OpenedOnce history
  /-- Registrations of direct sessions have returned direct ones. -/
  returns : ReturnsDirect history

/-- One call keeps direct sessions direct. -/
theorem directKept_call {call : Call} {proposal reply : call.Reply}
    (guaranteed : self.conduct.Guaranteed history) (kept : DirectKept self history world)
    (proper : Proper self operation (momentsOf history index) call)
    (answered : self.handle world call proposal = some (reply, after))
    (new : OpensNew history ⟨world, call, reply⟩) (keeps : KeepsDirect ⟨world, call, reply⟩) :
    DirectKept self (history ++ [⟨index, operation, ⟨world, call, reply⟩⟩]) after := by
  refine ⟨traced_call kept.traced proper answered, kept.once.concat new, ?_⟩
  intro entry member seenAt session publish registered sent same direct
  rcases List.mem_concat_iff.mp member with earlier | now
  · exact kept.returns entry earlier seenAt session publish registered sent same direct
  · rw [now] at same
    cases same
    exact unrelayed_register guaranteed kept.traced kept.once proper answered keeps direct

theorem unrelayed_of_dials {past seen : List Moment} {expected : ExpectedPeer} {kind : SessionKind}
    {publish : Publish} (traced : Traced self history world)
    (dials : Dials seen operation expected kind) (known : past ⊆ momentsOf history index)
    (registers : Registers self past operation session publish) : session.isRelayed = false := by
  cases registers with
  | incoming => cases dials
  | accepted => cases dials
  | relayed => cases dials
  | dialled _ _ _ _ _ joined =>
    obtain ⟨_, _, _, _, _, _, _, found⟩ := raced_of_joined traced (joined.mono known)
    rw [Session.isRelayed, found.direct]
    rfl

/-- No call passes on an address but that of a session its operation has to do with: there is none
in the operations of the relay paths. -/
theorem passesOn_of_guaranteed (guaranteed : self.conduct.Guaranteed history) {entry : Record}
    (member : entry ∈ history) (passes : entry.moment.call.passesAddress = true) :
    ∃ session, PassesOn self history entry session := by
  obtain ⟨before, later, split⟩ := List.append_of_mem member
  have proper : Proper self entry.operation (momentsOf before entry.index)
      entry.moment.call := guaranteed before entry later split
  have known : momentsOf before entry.index ⊆ momentsOf history entry.index :=
    mem_momentsOf_of_split split
  unfold PassesOn
  generalize entry.moment.call = call at passes proper
  cases call
  case observeAuthenticated peer =>
    obtain ⟨session, now, rfl, remembers⟩ := proper
    exact ⟨session, .inl ⟨now, rfl⟩, remembers.mono known⟩
  case recordAuthenticated id address certificateSha256 source =>
    obtain ⟨session, rfl, remembers⟩ := proper
    exact ⟨session, .inr ⟨id, certificateSha256, source, rfl⟩, remembers.mono known⟩
  all_goals cases passes

/-- What an operation passes on is the address of a direct session. -/
theorem direct_of_directKept {pool : Jobs}
    (conduct : self.conduct.Kept pool) (kept : DirectKept self pool.history pool.world)
    {entry : Record} (member : entry ∈ pool.history)
    (genuine : entry.operation.confirms = some session → RegisteredIn pool.history session)
    (remembers : Remembers self (momentsOf pool.history entry.index) entry.operation session) :
    Direct pool.history session := by
  have guaranteed := conduct.entries
  generalize does : entry.operation = operation at remembers genuine
  cases remembers with
  | incoming seenAt connection _ opened inbound =>
    obtain ⟨opening, present, -, made⟩ := mem_history_of_past opened
    have opens : openedBy opening.moment = some session.connection := by
      rw [made, inbound.connection]
      rfl
    refine ⟨by rw [Session.isRelayed, inbound.direct]; rfl,
      fun other there tunnels connection opensToo same => ?_⟩
    obtain rfl := kept.once.unique there present opensToo opens same
    rw [made] at tunnels
    cases tunnels
  | dialled _ expected kind seenAt own _ sent dials registers =>
    obtain ⟨register, present, sameJob, made⟩ := mem_history_of_past registers
    obtain ⟨before, later, split⟩ := List.append_of_mem present
    have proper : Proper self register.operation (momentsOf before register.index)
        register.moment.call := guaranteed before register later split
    have sameOperation : register.operation = operation := by
      obtain ⟨job, found, runs⟩ := conduct.recorded.known register present
      obtain ⟨other, foundToo, runsToo⟩ := conduct.recorded.known entry member
      rw [sameJob] at found
      obtain rfl : job = other := Option.some.inj (found.symm.trans foundToo)
      exact (runs.symm.trans runsToo).trans does
    rw [made, sameOperation] at proper
    have direct : own.isRelayed = false :=
      unrelayed_of_dials kept.traced dials (mem_momentsOf_of_split split) proper
    exact direct_of_registered guaranteed kept.traced kept.once
      (kept.traced.returned register present seenAt own .never session sent made).2
      (kept.returns register present seenAt own .never session sent made direct)
  | confirmed _ _ confirms kind =>
    have registered := genuine confirms
    refine direct_of_registered guaranteed kept.traced kept.once registered ?_
    obtain ⟨_, _, _, opening, _, opened⟩ := opening_of_registered guaranteed kept.traced registered
    cases relayed : session.isRelayed with
    | false => rfl
    | true => exact absurd ((opened.input relayed).symm.trans kind) (by decide)

/-- Then every address that is passed on is that of a direct session. -/
theorem loopbackPrivate_of_directKept {pool : Jobs}
    (conduct : self.conduct.Kept pool) (kept : DirectKept self pool.history pool.world) :
    LoopbackPrivate self pool.history := by
  intro entry member passes genuine
  have direct : ∀ session, PassesOn self pool.history entry session →
      Direct pool.history session := fun session passed =>
    direct_of_directKept conduct kept member (genuine session) passed.2
  obtain ⟨session, passed⟩ := passesOn_of_guaranteed conduct.entries member passes
  exact ⟨⟨session, passed, direct session passed⟩, direct⟩

/-- In a run in which connections are told apart and no relayed session is returned for a retired
process, every address that is passed to the discovery service or the endpoint repository is that of
a direct session. -/
theorem relay_addresses_private (self : Runtime) (database : Database) {inputs : Inputs}
    (meets : Run.Along self.system.step (System.initial (World.fresh database))
      (self.system.Meets fun history moment => OpensNew history moment ∧ KeepsDirect moment)
      inputs) :
    Run.Throughout self.system.step (System.initial (World.fresh database))
      (fun pool => LoopbackPrivate self pool.history) inputs := by
  have kept := self.conduct.invariant_run (DirectKept self)
    ⟨traced_fresh database, List.Pairwise.nil, fun _ absent => absurd absent List.not_mem_nil⟩
    (fun guaranteed holds proper answered met =>
      directKept_call guaranteed holds proper answered met.1 met.2)
    (fun event holds => ⟨traced_disturb holds.traced event, holds.once, holds.returns⟩) meets
  exact fun done isPrefix =>
    loopbackPrivate_of_directKept (kept done isPrefix).1 (kept done isPrefix).2

/-! ## Concrete runs -/

/-- A dial reaches Bob, and its session is remembered. -/
theorem relay_addresses_private_bob :
    (sharedPool.history.any fun entry => entry.moment.call matches .observeAuthenticated _) = true ∧
      LoopbackPrivate (accepting .pairing) sharedPool.history := by
  obtain ⟨remembers, meets⟩ : (sharedPool.history.any fun entry =>
      entry.moment.call matches .observeAuthenticated _) = true ∧
      Run.Along (accepting .pairing).system.step (System.initial (World.fresh .empty))
        ((accepting .pairing).system.Meets fun history moment =>
          OpensNew history moment ∧ KeepsDirect moment) sharedRun := by
    decide +kernel
  exact ⟨remembers, relay_addresses_private (accepting .pairing) .empty meets sharedRun
    (List.prefix_refl _)⟩

/-- A platform on which a confirmation names the process. -/
def processPlatform : Platform :=
  { pairPlatform .realtimeInput with
    decodeAccepted := fun bytes => .ok ⟨1, 1, 0, .ofNat (bytes.headD 0).toNat, bytes.tail⟩ }

/-- What reaches Alice from a process of Bob's over a connection. -/
def fromProcess (process : UInt8) (connection : Connection) (hello auth time : Nat) :
    (call : Call) → call.Reply
  | .incoming | .throughTunnel _ _ => .ok connection
  | .connect _ _ => .ok connection
  | .receive _ _ =>
    .ok (if time = hello then [1, 0]
      else if time = auth then sampleAuth processPlatform "bob"
        (sampleHello "alice" 1 .realtimeInput) (sampleHello "bob" 2 .realtimeInput)
      else 2 :: List.replicate 16 process)
  | call => call.smooth

/-- The connections of the run: one that Alice dials, one that Bob dials, and one through a tunnel,
whose address is the private one of the tunnel. -/
def runConnection (id : Nat) : Connection :=
  { sampleConnection (some (List.replicate 32 2)) with
    stableId := id
    remoteAddress := if id = 2 then .v4 0x7f000001 40000 else .v4 1 9 }

/-- Bob is paired. Alice dials Bob for input and reaches a first process; before the session is
registered, the same process connects to Alice, and then, restarted, through a relay. -/
def restartRun : Inputs :=
  List.flatten [
    [.start (.confirmPairing (.sample "bob" "bob" 0 .pairing 7 false)
        [⟨⟨"bob"⟩, .crossScreenInject, .inbound, .none, 0⟩]),
      .start (.connect bobAdvertisement .realtimeInput), .start (.candidate 0 0),
      .start .acceptIncoming, .start (.acceptInputRelay ⟨"bob"⟩)],
    resumes 0 (fun _ => Call.smooth) 0 8,
    resumes 1 (fun _ => Call.smooth) 0 5,
    resumes 2 (fromProcess 7 (runConnection 0) 16 22) 0 40,
    resumes 3 (fromProcess 7 (runConnection 1) 6 22) 0 42,
    resumes 4 (fromProcess 8 (runConnection 2) 8 24) 0 43,
    resumes 1 (fun _ => Call.smooth) 5 9]

/-- Alice after it. -/
def restartPool : Jobs :=
  (sample processPlatform "alice" 1).after .empty restartRun

/-- The relayed session that registering a session without publishing it has returned. -/
def handedRelay : Moment → Option Session
  | ⟨_, .register _ .never, (.ok registered, _)⟩ =>
    if registered.isRelayed then some registered else none
  | _ => none

/-- A call stores the address of a session's connection as Bob's. -/
def storesAddress (session : Session) : Call → Bool
  | .recordAuthenticated id address _ .mdns => id == ⟨"bob"⟩ && address == dialAddress session
  | _ => false

/-- The dial registers its session for the process that is retired, is handed the relayed session,
and stores the private address of the tunnel as Bob's. -/
theorem relay_address_recorded :
    Run.Along (sample processPlatform "alice" 1).system.step (System.initial (World.fresh .empty))
      ((sample processPlatform "alice" 1).system.Meets OpensNew) restartRun ∧
    (∃ entry ∈ restartPool.history, ∃ certificateSha256, entry.moment.call =
      .recordAuthenticated ⟨"bob"⟩ (.v4 0x7f000001 40000) certificateSha256 .mdns) ∧
    ¬ LoopbackPrivate (sample processPlatform "alice" 1) restartPool.history := by
  obtain ⟨told, handed⟩ :
      Run.Along (sample processPlatform "alice" 1).system.step (System.initial (World.fresh .empty))
        ((sample processPlatform "alice" 1).system.Meets OpensNew) restartRun ∧
      (restartPool.history.any fun entry => (handedRelay entry.moment).any fun registered =>
        dialAddress registered == .v4 0x7f000001 40000 && restartPool.history.any fun other =>
          other.index == entry.index && storesAddress registered other.moment.call &&
            other.operation == .connect bobAdvertisement .realtimeInput) = true := by
    decide +kernel
  simp only [List.any_eq_true, Option.any_eq_true, Bool.and_eq_true, beq_iff_eq] at handed
  obtain ⟨register, member, registered, returned, address, entry, present, ⟨sameJob, stores⟩,
    does⟩ :=
    handed
  -- the call that stores the address, and the registration that has returned the session
  obtain ⟨certificateSha256, made⟩ : ∃ certificateSha256, entry.moment.call =
      .recordAuthenticated ⟨"bob"⟩ (dialAddress registered) certificateSha256 .mdns := by
    unfold storesAddress at stores
    split at stores
    · rename_i certificateSha256 call
      simp only [Bool.and_eq_true, beq_iff_eq] at stores
      obtain ⟨rfl, rfl⟩ := stores
      exact ⟨certificateSha256, call⟩
    · cases stores
  obtain ⟨seenAt, own, sent, registers, relayed⟩ : ∃ seenAt own sent, register.moment =
      ⟨seenAt, .register own .never, (.ok registered, sent)⟩ ∧ registered.isRelayed = true := by
    unfold handedRelay at returned
    split at returned
    · rename_i seenAt own result sent moment
      split at returned
      · rename_i relayed
        cases returned
        exact ⟨seenAt, own, sent, moment, relayed⟩
      · cases returned
    · cases returned
  refine ⟨told, ⟨entry, present, certificateSha256, address ▸ made⟩, fun loopback => ?_⟩
  have remembers : Remembers (sample processPlatform "alice" 1)
      (momentsOf restartPool.history entry.index) entry.operation registered := by
    rw [does]
    exact .dialled _ _ _ seenAt own registered sent (.connect bobAdvertisement .realtimeInput)
      (mem_momentsOf.mpr ⟨register, member, sameJob.symm, registers⟩)
  have unconfirmed : ∀ session, entry.operation.confirms = some session →
      RegisteredIn restartPool.history session := by
    intro session confirms
    rw [does] at confirms
    cases confirms
  have passes : entry.moment.call.passesAddress = true := by rw [made]; rfl
  have direct := (loopback entry present passes unconfirmed).2 registered
    ⟨.inr ⟨_, _, _, made⟩, remembers⟩
  exact absurd (relayed.symm.trans direct.untunnelled) Bool.noConfusion

end Runtime

end ArcRelay
