import ArcRelay.Verif.Conduct

/-!
# Where registered sessions come from

In every run, a session that a race has found was opened by one of its candidates
and reaches the peer the race was started for, and what the registry holds or
hands out was registered before. This needs no assumption on the run.
-/

namespace ArcRelay

open System (momentsOf mem_momentsOf)

/-- The session was passed to `register_session`. -/
def RegisteredIn (history : History) (session : Session) : Prop :=
  ∃ entry ∈ history, ∃ publish, entry.moment.call = .register session publish

/-- A session to the expected peer, on a connection that a candidate has opened. -/
def Raced (self : Runtime) (history : History) (expected : ExpectedPeer) (kind : SessionKind)
    (session : Session) : Prop :=
  ∃ entry ∈ history, ∃ world address recovery connection,
    entry.moment = ⟨world, .connect address recovery, .ok connection⟩ ∧
      Found self expected kind connection session

/-- What is known of the races and of the registry after a history. -/
structure Traced (runtime : Runtime) (history : History) (world : World) : Prop where
  started : ∀ entry ∈ history, ∀ before expected kind candidates recovery race,
    entry.moment = ⟨before, .startRace expected kind candidates recovery, race⟩ →
      ∃ current, world.races[race]? = some current ∧ current.expected = expected ∧
        current.kind = kind
  claimed : ∀ entry ∈ history, ∀ before race index claimed address,
    entry.moment = ⟨before, .claim race index, (claimed, address)⟩ →
      ∃ current, world.races[race]? = some current ∧ World.SameRace claimed current
  results : ∀ (index : Nat) (race : Race) (result : CandidateResult) (session : Session),
    world.races[index]? = some race → result ∈ race.finished → result.result = .ok session →
      Raced runtime history race.expected race.kind session
  joined : ∀ entry ∈ history, ∀ before race result session,
    entry.moment = ⟨before, .joinNext race, some result⟩ → result.result = .ok session →
      ∃ current, world.races[race]? = some current ∧
        Raced runtime history current.expected current.kind session
  held : ∀ key entry, world.registry.sessions key = some entry →
    RegisteredIn history entry.session
  /-- What a registration returned was registered, under the same key. -/
  returned : ∀ entry ∈ history, ∀ before session publish registered sent,
    entry.moment = ⟨before, .register session publish, (.ok registered, sent)⟩ →
      registered.key = session.key ∧ RegisteredIn history registered
  /-- What was found active was registered, under the key asked for. -/
  active : ∀ entry ∈ history, ∀ before id kind session,
    entry.moment = ⟨before, .active id kind, some session⟩ →
      session.key = (id, kind) ∧ RegisteredIn history session

theorem RegisteredIn.concat {history : History} {session : Session}
    (registered : RegisteredIn history session) (entry : Record) :
    RegisteredIn (history ++ [entry]) session := by
  obtain ⟨first, member, publish, same⟩ := registered
  exact ⟨first, List.mem_append_left _ member, publish, same⟩

theorem Raced.concat {self : Runtime} {history : History} {expected : ExpectedPeer}
    {kind : SessionKind} {session : Session} (raced : Raced self history expected kind session)
    (entry : Record) :
    Raced self (history ++ [entry]) expected kind session := by
  obtain ⟨first, member, facts⟩ := raced
  exact ⟨first, List.mem_append_left _ member, facts⟩

theorem mem_history_of_past {history : History} {index : Nat} {moment : Moment}
    (member : moment ∈ momentsOf history index) :
    ∃ entry ∈ history, entry.index = index ∧ entry.moment = moment :=
  mem_momentsOf.mp member

/-! ## Connections are told apart -/

/-- The connection a call has opened. -/
def openedBy : Moment → Option Connection
  | ⟨_, .incoming, .ok connection⟩ => some connection
  | ⟨_, .connect _ _, .ok connection⟩ => some connection
  | ⟨_, .throughTunnel _ _, .ok connection⟩ => some connection
  | _ => none

/-- The calls that open a connection through a tunnel. -/
def Call.tunnels : Call → Bool
  | .throughTunnel _ _ => true
  | _ => false

/-- A connection that is opened is not one that was opened before. -/
def OpensNew (history : History) (moment : Moment) : Prop :=
  ∀ connection ∈ openedBy moment, ∀ entry ∈ history, ∀ other ∈ openedBy entry.moment,
    other.stableId ≠ connection.stableId

instance (history : History) (moment : Moment) : Decidable (OpensNew history moment) :=
  inferInstanceAs (Decidable (∀ connection ∈ openedBy moment, ∀ entry ∈ history,
    ∀ other ∈ openedBy entry.moment, other.stableId ≠ connection.stableId))

/-- Two calls have not opened the same connection. -/
def OpenApart (first second : Record) : Prop :=
  ∀ connection ∈ openedBy first.moment, ∀ other ∈ openedBy second.moment,
    connection.stableId ≠ other.stableId

instance : Std.Symm OpenApart :=
  ⟨fun _ _ apart other opensToo connection opens => (apart connection opens other opensToo).symm⟩

/-- No connection was opened twice. -/
def OpenedOnce (history : History) : Prop := history.Pairwise OpenApart

/-- One more call keeps connections opened once if it opens a new one. -/
theorem OpenedOnce.concat {history : History} (once : OpenedOnce history)
    {entry : Record} (new : OpensNew history entry.moment) :
    OpenedOnce (history ++ [entry]) := by
  refine List.pairwise_append.mpr ⟨once, List.pairwise_singleton _ _, ?_⟩
  intro first member second last connection opens other opensToo
  rw [List.mem_singleton.mp last] at opensToo
  exact new other opensToo first member connection opens

theorem OpenedOnce.unique {history : History} (once : OpenedOnce history) {first second : Record}
    (member : first ∈ history) (present : second ∈ history) {connection other : Connection}
    (opens : openedBy first.moment = some connection)
    (opensToo : openedBy second.moment = some other) (same : connection.stableId = other.stableId) :
    first = second := by
  by_contra different
  exact once.forall member present different connection opens other opensToo same

/-- The call that has opened the connection of a session which a job registers: a relayed session
is for input, on a connection through a tunnel, any other on a connection that is not. The job has
opened the connection itself, or a candidate has. -/
structure OpenedFor (job : Nat) (session : Session) (entry : Record) :
    Prop where
  opens : openedBy entry.moment = some session.connection
  tunnelled : session.isRelayed = entry.moment.call.tunnels
  input : session.isRelayed = true → session.kind = .realtimeInput
  opener : entry.index = job ∨ ∃ address recovery, entry.moment.call = .connect address recovery

namespace Runtime

variable {self : Runtime} {index : Nat} {operation : Operation} {history : History}
  {world after : World} {call : Call} {proposal reply : Call.Reply call}

variable {session : Session}

/-- What a candidate reports was found for the race as it is now. -/
theorem raced_of_reports {race : Nat} {current : Race} (traced : Traced self history world)
    (present : world.races[race]? = some current)
    (reports : Reports self (momentsOf history index) race session) :
    Raced self history current.expected current.kind session := by
  obtain ⟨_, number, claimed, address, opened, recovery, connection, claims, connects, found⟩ :=
    reports
  obtain ⟨claim, claimIn, -, claimIs⟩ := mem_history_of_past claims
  obtain ⟨opening, openingIn, -, openingIs⟩ := mem_history_of_past connects
  obtain ⟨other, found', same⟩ := traced.claimed claim claimIn _ _ _ _ _ claimIs
  obtain rfl : current = other := Option.some.inj (present.symm.trans found')
  rw [same.1, same.2]
  exact ⟨opening, openingIn, opened, address, recovery, connection, openingIs, found⟩

/-- A report is made to a race that was there. -/
theorem reported_race {race number place : Nat} {result : CandidateResult} {current : Race}
    {proposal reply : Call.Reply (.report race number result)}
    (answered : self.handle world (.report race number result) proposal = some (reply, after))
    (present : after.races[place]? = some current) :
    ∃ earlier, world.races[place]? = some earlier ∧ World.SameRace earlier current := by
  cases answered
  have longer : (world.report race number result).races.length = world.races.length := by
    unfold World.report
    split
    · rfl
    · simp [World.setRace]
  have inside : place < world.races.length := by
    have bound := (List.getElem?_eq_some_iff.mp present).1
    omega
  have before : world.races[place]? = some world.races[place] := List.getElem?_eq_getElem inside
  obtain ⟨later, found, kept⟩ := (world.report_races race number result).stays _ _ before
  obtain rfl : current = later := Option.some.inj (present.symm.trans found)
  exact ⟨_, before, kept⟩

/-- One call keeps the races traced. -/
theorem traced_call (traced : Traced self history world)
    (proper : Proper self operation (momentsOf history index) call)
    (answered : self.handle world call proposal = some (reply, after)) :
    Traced self (history ++ [⟨index, operation, ⟨world, call, reply⟩⟩]) after := by
  have change := handle_races answered
  -- a race that was there is still the same one
  have stays : ∀ {place : Nat} {race : Race}, world.races[place]? = some race →
      ∃ later, after.races[place]? = some later ∧ World.SameRace race later :=
    fun present => change.stays _ _ present
  refine ⟨?_, ?_, ?_, ?_, ?_, ?_, ?_⟩
  · intro entry member before expected kind candidates recovery race same
    rcases List.mem_concat_iff.mp member with earlier | rfl
    · obtain ⟨current, present, sameExpected, sameKind⟩ :=
        traced.started entry earlier _ _ _ _ _ _ same
      obtain ⟨later, found, kept⟩ := stays present
      exact ⟨later, found, kept.1.trans sameExpected, kept.2.trans sameKind⟩
    · cases same
      cases answered
      exact ⟨.start expected kind candidates recovery, by simp, rfl, rfl⟩
  · intro entry member before race number claimed address same
    rcases List.mem_concat_iff.mp member with earlier | rfl
    · obtain ⟨current, present, kept⟩ := traced.claimed entry earlier _ _ _ _ _ same
      obtain ⟨later, found, kept'⟩ := stays present
      exact ⟨later, found, kept'.1.trans kept.1, kept'.2.trans kept.2⟩
    · cases same
      exact stays (World.claim_eq_some answered).1
  · intro place race result session present member succeeded
    rcases change.results place race result present member with ⟨number, rfl⟩ |
      ⟨earlier, found, same, inside⟩
    · obtain ⟨earlier, present', kept⟩ := reported_race answered present
      have raced := raced_of_reports traced present' (proper.2 session succeeded)
      rw [kept.1, kept.2]
      exact raced.concat _
    · rw [same.1, same.2]
      exact (traced.results place earlier result session found inside succeeded).concat _
  · intro entry member before race result session same succeeded
    rcases List.mem_concat_iff.mp member with earlier | rfl
    · obtain ⟨current, present, raced⟩ := traced.joined entry earlier _ _ _ _ same succeeded
      obtain ⟨later, found, kept⟩ := stays present
      rw [← kept.1, ← kept.2] at raced
      exact ⟨later, found, raced.concat _⟩
    · cases same
      obtain ⟨current, present, inside⟩ := (World.joinNext_eq_some answered).1 result rfl
      have raced := traced.results _ current result session present inside succeeded
      obtain ⟨later, found, kept⟩ := stays present
      rw [← kept.1, ← kept.2] at raced
      exact ⟨later, found, raced.concat _⟩
  · intro key entry found
    by_cases registers : ∃ session publish, call = .register session publish
    · obtain ⟨session, publish, rfl⟩ := registers
      rcases (handle_register answered).entries found with before | ⟨-, rfl⟩
      · exact (traced.held key entry before).concat _
      · exact ⟨_, List.mem_append_right _ (List.mem_singleton.mpr rfl), publish, rfl⟩
    · exact (traced.held key entry (handle_recedes (fun session publish same =>
        registers ⟨session, publish, same⟩) answered key entry found)).concat _
  · intro entry member before session publish registered sent same
    rcases List.mem_concat_iff.mp member with earlier | rfl
    · obtain ⟨sameKey, known⟩ := traced.returned entry earlier _ _ _ _ _ same
      exact ⟨sameKey, known.concat _⟩
    · cases same
      rcases (handle_register answered).returned rfl with rfl | ⟨current, found, rfl⟩
      · exact ⟨rfl, _, List.mem_append_right _ (List.mem_singleton.mpr rfl), publish, rfl⟩
      · exact ⟨world.registry.keyed _ _ found, (traced.held _ current found).concat _⟩
  · intro entry member before id kind session same
    rcases List.mem_concat_iff.mp member with earlier | rfl
    · obtain ⟨sameKey, known⟩ := traced.active entry earlier _ _ _ _ same
      exact ⟨sameKey, known.concat _⟩
    · cases same
      have replied : (world.registry.active id kind).1 = some session :=
        congrArg Prod.fst (Option.some.inj answered)
      obtain ⟨current, found, rfl⟩ := Registry.active_eq_some _ replied
      exact ⟨world.registry.keyed _ _ found, (traced.held _ current found).concat _⟩

/-- What happens beside the calls keeps the races and the registry traced. -/
theorem traced_disturb (traced : Traced self history world) (event : Event) :
    Traced self history (world.disturb event) := by
  have races : (world.disturb event).races = world.races := World.disturb_races world event
  exact ⟨by rw [races]; exact traced.started, by rw [races]; exact traced.claimed,
    by rw [races]; exact traced.results, by rw [races]; exact traced.joined,
    fun key entry found => traced.held key entry (World.disturb_recedes world event key entry
      found),
    traced.returned, traced.active⟩

theorem traced_fresh (database : Database) : Traced self [] (World.fresh database) := by
  have vacuous : ∀ {α : Prop} (entry : Record), entry ∈ [] → α :=
    fun entry absent => absurd absent List.not_mem_nil
  refine ⟨fun entry absent => vacuous entry absent, fun entry absent => vacuous entry absent,
    fun index race result session found => ?_, fun entry absent => vacuous entry absent,
    fun key entry found => ?_, fun entry absent => vacuous entry absent,
    fun entry absent => vacuous entry absent⟩
  · cases found
  · cases found

/-- A session that was joined in a race was found by one of its candidates. -/
theorem raced_of_joined (traced : Traced self history world) {expected : ExpectedPeer}
    {kind : SessionKind} (joined : Joined (momentsOf history index) expected kind session) :
    Raced self history expected kind session := by
  obtain ⟨started, candidates, recovery, race, joinedAt, result, starts, joins, succeeded⟩ := joined
  obtain ⟨start, startIn, -, startIs⟩ := mem_history_of_past starts
  obtain ⟨join, joinIn, -, joinIs⟩ := mem_history_of_past joins
  obtain ⟨first, present, sameExpected, sameKind⟩ :=
    traced.started start startIn _ _ _ _ _ _ startIs
  obtain ⟨second, again, raced⟩ := traced.joined join joinIn _ _ _ _ joinIs succeeded
  obtain rfl : first = second := Option.some.inj (present.symm.trans again)
  rwa [sameExpected, sameKind] at raced

/-- A registered session was registered as its operation guarantees. -/
theorem registers_of_registered (guaranteed : self.conduct.Guaranteed history)
    (registered : RegisteredIn history session) : ∃ before entry later publish,
      history = before ++ entry :: later ∧ entry.moment.call = .register session publish ∧
        Registers self (momentsOf before entry.index) entry.operation session publish := by
  obtain ⟨entry, member, publish, made⟩ := registered
  obtain ⟨before, later, split⟩ := List.append_of_mem member
  have proper : Proper self entry.operation (momentsOf before entry.index)
      entry.moment.call := guaranteed before entry later split
  rw [made] at proper
  exact ⟨before, entry, later, publish, split, made, proper⟩

theorem mem_momentsOf_of_split {before later : History} {entry : Record}
    (split : history = before ++ entry :: later) :
    momentsOf before index ⊆ momentsOf history index := by
  rw [split, System.momentsOf_append]
  exact List.subset_append_left _ _

/-- Where a session that is registered comes from. -/
theorem opening_of_registers (traced : Traced self history world) {past : List Moment}
    (seen : past ⊆ momentsOf history index) {publish : Publish}
    (registers : Registers self past operation session publish) :
    ∃ entry ∈ history, OpenedFor index session entry := by
  cases registers with
  | incoming seenAt connection _ opened inbound =>
    obtain ⟨entry, member, own, made⟩ := mem_history_of_past (seen opened)
    refine ⟨entry, member, ?_, ?_, fun relayed => ?_, .inl own⟩
    · rw [made, inbound.connection]
      rfl
    · rw [made, Session.isRelayed, inbound.direct]
      rfl
    · rw [Session.isRelayed, inbound.direct] at relayed
      cases relayed
  | accepted source seenAt tunnel connection plain opened inbound kind =>
    obtain ⟨entry, member, own, made⟩ := mem_history_of_past (seen opened)
    refine ⟨entry, member, ?_, ?_, fun _ => kind, .inl own⟩
    · rw [made, ← inbound.connection]
      rfl
    · rw [made]
      rfl
  | relayed target record seenAt tunnel connection plain read opened found =>
    obtain ⟨entry, member, own, made⟩ := mem_history_of_past (seen opened)
    refine ⟨entry, member, ?_, ?_, fun _ => found.kind, .inl own⟩
    · rw [made, ← found.connection]
      rfl
    · rw [made]
      rfl
  | dialled _ expected kind _ dials joined =>
    obtain ⟨entry, member, seenAt, address, recovery, connection, made, found⟩ :=
      raced_of_joined traced (joined.mono seen)
    refine ⟨entry, member, ?_, ?_, fun relayed => ?_, .inr ⟨address, recovery, by rw [made]⟩⟩
    · rw [made, found.connection]
      rfl
    · rw [made, Session.isRelayed, found.direct]
      rfl
    · rw [Session.isRelayed, found.direct] at relayed
      cases relayed

theorem opening_of_registered (guaranteed : self.conduct.Guaranteed history)
    (traced : Traced self history world) (registered : RegisteredIn history session) :
    ∃ registering ∈ history, registering.moment.call.toRegister = some session ∧
      ∃ entry ∈ history, OpenedFor registering.index session entry := by
  obtain ⟨before, entry, later, publish, split, made, registers⟩ :=
    registers_of_registered guaranteed registered
  exact ⟨entry, by simp [split], by rw [made]; rfl,
    opening_of_registers traced (mem_momentsOf_of_split split) registers⟩

end Runtime

end ArcRelay
