import ArcRelay.Runtime
import ArcRelay.Verif.Registry
import ArcRelay.Verif.Repository

/-!
# What single calls change

Frame facts of the handler: only five calls write the repository, only a few
touch the session registry, and only those of the races and the gates touch these.
-/

namespace ArcRelay

/-- The calls that write the repository. -/
def Call.writes : Call → Bool
  | .savePeer _ | .savePairing _ _ | .forgetPeer _ | .saveGrant _ | .revokeGrant _ _ _ => true
  | _ => false

/-- The calls that read or write the session registry. -/
def Call.touchesRegistry : Call → Bool
  | .close _ _ _ | .active _ _ | .register _ _ | .disconnect _ _ | .closeInput _ | .sweep _
  | .relayCleanup _ => true
  | _ => false

/-- The calls that change a race. -/
def Call.touchesRaces : Call → Bool
  | .startRace _ _ _ _ | .claim _ _ | .select _ _ | .report _ _ _ | .joinNext _
  | .shutdownRace _ => true
  | _ => false

/-- The calls on dial gates. -/
def Call.touchesGates : Call → Bool
  | .dialGate _ | .lockGate _ | .unlockGate _ => true
  | _ => false

namespace World

variable {world after : World}

theorem claim_frame {race index : Nat} {reply : Race × SocketAddr}
    (claimed : world.claim race index = some (reply, after)) :
    ∃ races, after = { world with races } := by
  unfold claim at claimed
  split at claimed
  · cases claimed
  · split at claimed
    · cases claimed
    · split at claimed
      · cases claimed
      · cases claimed
        exact ⟨_, rfl⟩

theorem select_frame {race index : Nat} (selected : world.select race index = some after) :
    ∃ races, after = { world with races } := by
  unfold select at selected
  split at selected
  · cases selected
  · split at selected
    · cases selected
      exact ⟨_, rfl⟩
    · cases selected

theorem report_frame (world : World) (race index : Nat) (result : CandidateResult) :
    ∃ races, world.report race index result = { world with races } := by
  unfold report
  split <;> exact ⟨_, rfl⟩

theorem joinNext_frame {race : Nat} {reply : Option CandidateResult}
    (joined : world.joinNext race = some (reply, after)) :
    ∃ races, after = { world with races } := by
  unfold joinNext at joined
  split at joined
  · cases joined
    exact ⟨_, rfl⟩
  · split at joined
    · cases joined
      exact ⟨_, rfl⟩
    · split at joined
      · cases joined
        exact ⟨_, rfl⟩
      · cases joined

theorem shutdownRace_frame (world : World) (race : Nat) :
    ∃ races, world.shutdownRace race = { world with races } := by
  unfold shutdownRace
  split <;> exact ⟨_, rfl⟩

theorem admitProbe_frame (world : World) (source : IpAddr) :
    ∃ probeRates, (world.admitProbe source).2 = { world with probeRates } := by
  unfold admitProbe
  dsimp only
  split <;> exact ⟨_, rfl⟩

theorem dialGate_frame (world : World) (key : SessionKey) :
    ∃ sessionDials gates, (world.dialGate key).2 = { world with sessionDials, gates } := by
  unfold dialGate
  split <;> exact ⟨_, _, rfl⟩

/-- A failed write changes nothing; one that succeeds stores its database. -/
theorem write_cases {α : Type} {proposal reply : Except RepositoryError α}
    {result : Except RepositoryError (α × Database)}
    (written : world.write proposal result = (reply, after)) :
    ((∃ error, reply = .error error) ∧ after = world) ∨
      ∃ value database, result = .ok (value, database) ∧ reply = .ok value ∧
        after = { world with database } := by
  unfold write at written
  split at written
  · cases written
    exact Or.inl ⟨⟨_, rfl⟩, rfl⟩
  · split at written
    · cases written
      exact Or.inl ⟨⟨_, rfl⟩, rfl⟩
    · cases written
      exact Or.inr ⟨_, _, rfl, rfl, rfl⟩

theorem write_frame {α : Type} {proposal reply : Except RepositoryError α}
    {result : Except RepositoryError (α × Database)}
    (written : world.write proposal result = (reply, after)) :
    ∃ database, after = { world with database } := by
  rcases write_cases written with ⟨-, rfl⟩ | ⟨_, _, -, -, rfl⟩ <;> exact ⟨_, rfl⟩

theorem read_eq_ok {α : Type} {proposal result : Except RepositoryError α} {value : α}
    (succeeded : World.read proposal result = .ok value) : result = .ok value := by
  unfold read at succeeded
  split at succeeded
  · cases succeeded
  · exact succeeded

end World

namespace Runtime

variable {self : Runtime} {world after : World} {call : Call} {proposal reply : Call.Reply call}

/-- What a call leaves alone. -/
structure Frame (call : Call) (world after : World) : Prop where
  database : call.writes = false → after.database = world.database
  registry : call.touchesRegistry = false → after.registry = world.registry
  races : call.touchesRaces = false → after.races = world.races
  gates : call.touchesGates = false →
    after.gates = world.gates ∧ after.sessionDials = world.sessionDials

theorem frame_refl (call : Call) (world : World) : Frame call world world :=
  ⟨fun _ => rfl, fun _ => rfl, fun _ => rfl, fun _ => ⟨rfl, rfl⟩⟩

theorem frame_of_write {α : Type} {written answer : Except RepositoryError α}
    {result : Except RepositoryError (α × Database)} (writes : call.writes = true)
    (answered : some (world.write written result) = some (answer, after)) :
    Frame call world after := by
  obtain ⟨database, rfl⟩ := World.write_frame (Option.some.inj answered)
  exact ⟨fun quiet => absurd (writes.symm.trans quiet) (by decide), fun _ => rfl, fun _ => rfl,
    fun _ => ⟨rfl, rfl⟩⟩

theorem frame_of_races (touches : call.touchesRaces = true)
    (changed : ∃ races, after = { world with races }) : Frame call world after := by
  obtain ⟨races, rfl⟩ := changed
  exact ⟨fun _ => rfl, fun _ => rfl, fun quiet => absurd (touches.symm.trans quiet) (by decide),
    fun _ => ⟨rfl, rfl⟩⟩

theorem select_answer {race index : Nat} {proposal reply : Except NetworkError Unit}
    (answered : self.handle world (.select race index) proposal = some (reply, after)) :
    reply = .error .timeout ∧ after = world ∨
      reply = .ok () ∧ world.select race index = some after := by
  cases proposal with
  | error error =>
    cases answered
    exact Or.inl ⟨rfl, rfl⟩
  | ok _ =>
    obtain ⟨other, selected, pair⟩ := Option.map_eq_some_iff.mp answered
    cases pair
    exact Or.inr ⟨rfl, selected⟩

/-- Every call leaves alone what it does not touch. -/
theorem handle_frame (answered : self.handle world call proposal = some (reply, after)) :
    Frame call world after := by
  cases call
  case claim race index => exact frame_of_races rfl (World.claim_frame answered)
  case joinNext race => exact frame_of_races rfl (World.joinNext_frame answered)
  case select race index =>
    rcases select_answer answered with ⟨_, rfl⟩ | ⟨_, selected⟩
    · exact frame_refl _ _
    · exact frame_of_races rfl (World.select_frame selected)
  case report race index result =>
    cases answered
    exact frame_of_races rfl (World.report_frame world race index result)
  case shutdownRace race =>
    cases answered
    exact frame_of_races rfl (World.shutdownRace_frame world race)
  case admitProbe source =>
    have pair := Option.some.inj answered
    obtain ⟨probeRates, same⟩ := World.admitProbe_frame world source
    rw [← show (world.admitProbe source).2 = after from congrArg Prod.snd pair, same]
    exact ⟨fun _ => rfl, fun _ => rfl, fun _ => rfl, fun _ => ⟨rfl, rfl⟩⟩
  case dialGate key =>
    have pair := Option.some.inj answered
    obtain ⟨sessionDials, gates, same⟩ := World.dialGate_frame world key
    rw [← show (world.dialGate key).2 = after from congrArg Prod.snd pair, same]
    exact ⟨fun _ => rfl, fun _ => rfl, fun _ => rfl, nofun⟩
  case awaitCleanup session =>
    simp only [handle] at answered
    split at answered <;> cases answered
    exact frame_refl _ _
  case awaitRace race =>
    simp only [handle] at answered
    split at answered <;> cases answered
    exact frame_refl _ _
  case lockGate gate =>
    simp only [handle] at answered
    split at answered <;> cases answered
    exact ⟨fun _ => rfl, fun _ => rfl, fun _ => rfl, nofun⟩
  case unlockGate gate =>
    cases answered
    exact ⟨fun _ => rfl, fun _ => rfl, fun _ => rfl, nofun⟩
  case startRace expected kind candidates recovery =>
    cases answered
    exact frame_of_races rfl ⟨_, rfl⟩
  case savePeer peer => exact frame_of_write rfl answered
  case savePairing peer grants => exact frame_of_write rfl answered
  case forgetPeer id => exact frame_of_write rfl answered
  case saveGrant grant => exact frame_of_write rfl answered
  case revokeGrant id capability direction => exact frame_of_write rfl answered
  all_goals
    cases answered
    first
      | exact frame_refl _ _
      | exact ⟨fun _ => rfl, fun _ => rfl, fun _ => rfl, fun _ => ⟨rfl, rfl⟩⟩
      | exact ⟨fun _ => rfl, nofun, fun _ => rfl, fun _ => ⟨rfl, rfl⟩⟩

theorem handle_database (quiet : call.writes = false)
    (answered : self.handle world call proposal = some (reply, after)) :
    after.database = world.database :=
  (handle_frame answered).database quiet

/-- Only a registration adds a session. -/
theorem handle_recedes (other : ∀ session publish, call ≠ .register session publish)
    (answered : self.handle world call proposal = some (reply, after)) :
    world.registry.Recedes after.registry := by
  cases touches : call.touchesRegistry with
  | false =>
    rw [(handle_frame answered).registry touches]
    exact Registry.recedes_of_sessions rfl
  | true =>
    cases call
    case register session publish => exact absurd rfl (other session publish)
    case close connection code reason =>
      cases answered
      exact Registry.recedes_of_sessions (Registry.closeWith_sessions _ _ _)
    case active id kind =>
      cases answered
      exact Registry.recedes_active _ _ _
    case disconnect id reason =>
      cases answered
      exact Registry.recedes_removePeer _ _ _ _
    case closeInput id =>
      cases answered
      exact Registry.recedes_removeAndClose _ _ _ _
    case sweep id =>
      cases answered
      exact Registry.recedes_removePeer _ _ _ _
    case relayCleanup session =>
      cases answered
      exact Registry.recedes_relayCleanup _ _
    all_goals cases touches

theorem handle_register {session : Session} {publish : Publish}
    {proposal reply : Call.Reply (.register session publish)}
    (answered : self.handle world (.register session publish) proposal = some (reply, after)) :
    Registry.Registration world.registry session reply.1 after.registry := by
  have outcome := world.registry.registerSession_registration session
  cases answered
  exact outcome

/-- No call opens a connection that was closed. -/
theorem handle_closing (answered : self.handle world call proposal = some (reply, after))
    {connection : ConnectionId} (opened : after.registry.isOpen connection = true) :
    world.registry.isOpen connection = true := by
  cases touches : call.touchesRegistry with
  | false => rwa [(handle_frame answered).registry touches] at opened
  | true =>
    cases call
    case register session publish =>
      exact Registry.Registration.closing _ (handle_register answered) opened
    case close other code reason =>
      cases answered
      rw [Registry.close_eq, Registry.isOpen_closeWith] at opened
      exact (Bool.and_eq_true_iff.mp opened).1
    case active id kind =>
      cases answered
      unfold Registry.active at opened
      split at opened
      · exact opened
      · exact Registry.isOpen_of_remove _ opened
    case disconnect id reason =>
      cases answered
      exact ((Registry.isOpen_removePeer _ _ _ _ _).mp opened).1
    case closeInput id =>
      cases answered
      exact ((Registry.isOpen_removeAndClose _ _ _ _ _).mp opened).1
    case sweep id =>
      cases answered
      exact ((Registry.isOpen_removePeer _ _ _ _ _).mp opened).1
    case relayCleanup session =>
      cases answered
      unfold Registry.relayCleanup at opened
      split at opened
      · exact Registry.isOpen_of_remove _ opened
      · exact opened
    all_goals cases touches

end Runtime

namespace World

theorem disturb_recedes (world : World) (event : Event) :
    world.registry.Recedes (world.disturb event).registry := by
  refine Registry.recedes_of_sessions ?_
  cases event with
  | closed connection reason => exact Registry.closeWith_sessions _ _ _
  | dropHandle session => exact Registry.release_sessions _ _
  | cloneTransport session =>
    simp only [disturb, Registry.cloneTransport]
    split <;> rfl
  | dropTransport session => exact Registry.release_sessions _ _
  | tick nanoseconds => rfl
  | setDiscoverable discoverable => rfl

theorem disturb_closing {world : World} {event : Event} {connection : ConnectionId}
    (opened : (world.disturb event).registry.isOpen connection = true) :
    world.registry.isOpen connection = true := by
  cases event with
  | closed other reason =>
    rw [disturb, Registry.isOpen_closeWith] at opened
    exact (Bool.and_eq_true_iff.mp opened).1
  | dropHandle session =>
    have before := Registry.isOpen_of_release _ opened
    exact before
  | cloneTransport session =>
    simp only [disturb, Registry.cloneTransport] at opened
    split at opened <;> exact opened
  | dropTransport session =>
    have before := Registry.isOpen_of_release _ opened
    exact before
  | tick nanoseconds => exact opened
  | setDiscoverable discoverable => exact opened

@[simp] theorem disturb_database (world : World) (event : Event) :
    (world.disturb event).database = world.database := by
  cases event <;> rfl

@[simp] theorem disturb_races (world : World) (event : Event) :
    (world.disturb event).races = world.races := by
  cases event <;> rfl

/-! ## Races -/

/-- The race keeps what it was started for. -/
def SameRace (before after : Race) : Prop :=
  after.expected = before.expected ∧ after.kind = before.kind

/-- How one call may change the races: at one place, a race that stays the same one, with results
that were there before or are new as described. -/
structure RacesChange (added : Nat → CandidateResult → Prop) (before after : List Race) : Prop where
  stays : ∀ (index : Nat) (race : Race), before[index]? = some race →
    ∃ later, after[index]? = some later ∧ SameRace race later
  results : ∀ (index : Nat) (race : Race) (result : CandidateResult), after[index]? = some race →
    result ∈ race.finished →
      added index result ∨ ∃ earlier, before[index]? = some earlier ∧ SameRace earlier race ∧
        result ∈ earlier.finished

variable {added : Nat → CandidateResult → Prop}

theorem racesChange_refl (races : List Race) :
    RacesChange added races races :=
  ⟨fun _ race found => ⟨race, found, rfl, rfl⟩,
    fun _ race _ found member => Or.inr ⟨race, found, ⟨rfl, rfl⟩, member⟩⟩

/-- A change of one race. -/
theorem racesChange_set {races : List Race} {place : Nat} {entry changed : Race}
    (found : races[place]? = some entry) (same : SameRace entry changed)
    (results : ∀ result ∈ changed.finished, added place result ∨ result ∈ entry.finished) :
    RacesChange added races (races.set place changed) := by
  have inside : place < races.length := (List.getElem?_eq_some_iff.mp found).1
  refine ⟨fun index race present => ?_, fun index race result present member => ?_⟩
  · by_cases here : place = index
    · subst here
      rw [found] at present
      cases present
      exact ⟨changed, by simp [inside], same⟩
    · exact ⟨race, by simp [here, present], rfl, rfl⟩
  · by_cases here : place = index
    · subst here
      have now : changed = race := by simpa [inside] using present
      subst now
      exact (results result member).imp id fun earlier => ⟨entry, found, same, earlier⟩
    · rw [List.getElem?_set_ne here] at present
      exact Or.inr ⟨race, present, ⟨rfl, rfl⟩, member⟩

/-- A race that is started. -/
theorem racesChange_start {races : List Race} (expected : ExpectedPeer) (kind : SessionKind)
    (candidates : List SocketAddr) (recovery : Bool) :
    RacesChange added races (races ++ [.start expected kind candidates recovery]) := by
  refine ⟨fun index race present => ?_, fun index race result present member => ?_⟩
  · have inside : index < races.length := (List.getElem?_eq_some_iff.mp present).1
    exact ⟨race, (List.getElem?_append_left inside).trans present, rfl, rfl⟩
  · rcases Nat.lt_trichotomy index races.length with inside | rfl | outside
    · rw [List.getElem?_append_left inside] at present
      exact Or.inr ⟨race, present, ⟨rfl, rfl⟩, member⟩
    · simp at present
      subst present
      cases member
    · rw [List.getElem?_eq_none (by simpa using outside)] at present
      cases present

theorem claim_eq_some {world after : World} {place index : Nat} {reply : Race × SocketAddr}
    (claimed : world.claim place index = some (reply, after)) :
    world.races[place]? = some reply.1 ∧
      RacesChange (fun _ _ => False) world.races after.races := by
  unfold claim at claimed
  split at claimed
  · cases claimed
  · rename_i entry found
    split at claimed
    · cases claimed
    · split at claimed
      · cases claimed
      · cases claimed
        exact ⟨found, racesChange_set found ⟨rfl, rfl⟩ fun _ member => Or.inr member⟩

theorem select_races {world after : World} {place index : Nat}
    (selected : world.select place index = some after) :
    RacesChange (fun _ _ => False) world.races after.races := by
  unfold select at selected
  split at selected
  · cases selected
  · rename_i entry found
    split at selected
    · cases selected
      exact racesChange_set found ⟨rfl, rfl⟩ fun _ member => Or.inr member
    · cases selected

theorem report_races (world : World) (place index : Nat) (result : CandidateResult) :
    RacesChange (fun race added => race = place ∧ added = result) world.races
      (world.report place index result).races := by
  unfold report
  split
  · exact racesChange_refl _
  · rename_i entry found
    refine racesChange_set found ⟨rfl, rfl⟩ fun other member => ?_
    dsimp only at member
    split at member
    · exact Or.inr member
    · rcases List.mem_concat_iff.mp member with earlier | new
      · exact Or.inr earlier
      · exact Or.inl ⟨rfl, new⟩

/-- Joining takes a result out of the race. -/
theorem joinNext_eq_some {world after : World} {place : Nat} {reply : Option CandidateResult}
    (joined : world.joinNext place = some (reply, after)) :
    (∀ result, reply = some result →
        ∃ race, world.races[place]? = some race ∧ result ∈ race.finished) ∧
      RacesChange (fun _ _ => False) world.races after.races := by
  unfold joinNext at joined
  split at joined
  · cases joined
    exact ⟨by simp, racesChange_refl _⟩
  · rename_i entry found
    split at joined
    · rename_i result later finished
      cases joined
      refine ⟨fun other same => ?_, racesChange_set found ⟨rfl, rfl⟩ fun other member => ?_⟩
      · cases same
        exact ⟨entry, found, by simp [finished]⟩
      · exact Or.inr (finished ▸ List.mem_cons_of_mem _ member)
    · split at joined
      · cases joined
        exact ⟨by simp, racesChange_refl _⟩
      · cases joined

theorem shutdownRace_races (world : World) (place : Nat) :
    RacesChange (fun _ _ => False) world.races (world.shutdownRace place).races := by
  unfold shutdownRace
  split
  · exact racesChange_refl _
  · rename_i entry found
    exact racesChange_set found ⟨rfl, rfl⟩ fun _ member => by cases member

/-- A change of the races is allowed where more results may be new. -/
theorem RacesChange.mono {more : Nat → CandidateResult → Prop} {before after : List Race}
    (change : RacesChange added before after)
    (subset : ∀ index result, added index result → more index result) :
    RacesChange more before after :=
  ⟨change.stays, fun index race result found member =>
    (change.results index race result found member).imp (subset index result) id⟩

end World

namespace Runtime

variable {self : Runtime} {world after : World} {call : Call} {proposal reply : Call.Reply call}

/-- Only a report adds a result to a race, and races stay what they were started for. -/
theorem handle_races (answered : self.handle world call proposal = some (reply, after)) :
    World.RacesChange (fun race result => ∃ index, call = .report race index result) world.races
      after.races := by
  cases touches : call.touchesRaces with
  | false =>
    rw [(handle_frame answered).races touches]
    exact World.racesChange_refl _
  | true =>
    cases call
    case startRace expected kind candidates recovery =>
      cases answered
      exact World.racesChange_start expected kind candidates recovery
    case claim place index =>
      exact (World.claim_eq_some answered).2.mono fun _ _ none => none.elim
    case select place index =>
      rcases select_answer answered with ⟨_, rfl⟩ | ⟨_, selected⟩
      · exact World.racesChange_refl _
      · exact (World.select_races selected).mono fun _ _ none => none.elim
    case report place index result =>
      cases answered
      refine (world.report_races place index result).mono fun race added new => ?_
      obtain ⟨rfl, rfl⟩ := new
      exact ⟨index, rfl⟩
    case joinNext place =>
      exact (World.joinNext_eq_some answered).2.mono fun _ _ none => none.elim
    case shutdownRace place =>
      cases answered
      exact (world.shutdownRace_races place).mono fun _ _ none => none.elim
    all_goals cases touches

end Runtime

/-! ## What is stored -/

/-- A call with its reply, in the world it was made in. -/
abbrev Moment := Program.Moment World Call.Reply

/-- The repository was written. -/
def wrote : Moment → Bool
  | ⟨_, .savePeer _, .ok _⟩ | ⟨_, .savePairing _ _, .ok _⟩ | ⟨_, .forgetPeer _, .ok _⟩
  | ⟨_, .saveGrant _, .ok _⟩ | ⟨_, .revokeGrant _ _ _, .ok _⟩ => true
  | _ => false

/-- The peer that was stored. -/
def storedPeer : Moment → Option PeerRecord
  | ⟨_, .savePeer record, .ok _⟩ => some record
  | ⟨_, .savePairing record _, .ok _⟩ => some { record with trustState := .paired }
  | _ => none

/-- The device whose confirmed pairing was stored. -/
def storedPairing : Moment → Option DeviceId
  | ⟨_, .savePairing record _, .ok _⟩ => some record.deviceId
  | _ => none

/-- The peer whose row was deleted, if it had one. -/
def forgottenPeer : Moment → Option DeviceId
  | ⟨_, .forgetPeer id, .ok _⟩ => some id
  | _ => none

/-- The grants that were stored. -/
def storedGrants : Moment → List Grant
  | ⟨_, .savePairing _ grants, .ok _⟩ => grants
  | ⟨_, .saveGrant grant, .ok _⟩ => [grant]
  | _ => []

theorem forgottenPeer_of_silent {moment : Moment} (silent : wrote moment = false) :
    forgottenPeer moment = none := by
  obtain ⟨world, call, reply⟩ := moment
  cases call
  case forgetPeer id =>
    cases reply with
    | error error => rfl
    | ok existed => cases silent
  all_goals rfl

/-- What a call makes of the repository. -/
inductive Written (platform : Platform) : Moment → Database → Prop
  | unchanged (moment : Moment) (silent : wrote moment = false) :
    Written platform moment moment.world.database
  | savedPeer (world : World) (record : PeerRecord) (database : Database)
    (saved : world.database.savePeer platform record = .ok database) :
    Written platform ⟨world, .savePeer record, .ok ()⟩ database
  | savedPairing (world : World) (record : PeerRecord) (grants : List Grant) (database : Database)
    (saved : world.database.savePairing platform record grants = .ok database) :
    Written platform ⟨world, .savePairing record grants, .ok ()⟩ database
  | forgot (world : World) (id : DeviceId) :
    Written platform ⟨world, .forgetPeer id, .ok (world.database.forgetPeer id).1⟩
      (world.database.forgetPeer id).2
  | savedGrant (world : World) (grant : Grant) (database : Database)
    (saved : world.database.saveGrant platform grant = .ok database) :
    Written platform ⟨world, .saveGrant grant, .ok ()⟩ database
  | revoked (world : World) (id : DeviceId) (capability : CapabilityId)
    (direction : GrantDirection) :
    Written platform ⟨world, .revokeGrant id capability direction,
        .ok (world.database.revokeGrant platform id capability direction).1⟩
      (world.database.revokeGrant platform id capability direction).2

/-- The session a call is to register. -/
def Call.toRegister : Call → Option Session
  | .register session _ => some session
  | _ => none

/-- The session that was published. -/
def published : Moment → Option Session
  | ⟨_, .register _ _, (.ok returned, true)⟩ => some returned
  | _ => none

namespace Runtime

variable {self : Runtime} {world after : World} {call : Call} {proposal reply : Call.Reply call}

/-- What is published was returned by a registration under its key. -/
theorem published_of_handle (answered : self.handle world call proposal = some (reply, after))
    {returned : Session} (shown : published ⟨world, call, reply⟩ = some returned) :
    ∃ session publish, call = .register session publish ∧ returned.key = session.key ∧
      (returned = session ∨ ∃ entry, world.registry.sessions session.key = some entry ∧
        entry.session = returned) := by
  cases call
  case register session publish =>
    have outcome := handle_register answered
    obtain ⟨result, sent⟩ := reply
    cases result with
    | error error => cases shown
    | ok other =>
      cases sent with
      | false => cases shown
      | true =>
        cases shown
        have origin := outcome.returned rfl
        refine ⟨session, publish, rfl, ?_, origin⟩
        rcases origin with rfl | ⟨entry, found, rfl⟩
        · rfl
        · exact world.registry.keyed _ _ found
  all_goals cases shown

/-- Every call makes one of these of the repository. -/
theorem handle_written (answered : self.handle world call proposal = some (reply, after)) :
    Written self.platform ⟨world, call, reply⟩ after.database := by
  cases writes : call.writes with
  | false =>
    rw [handle_database writes answered]
    refine .unchanged ⟨world, call, reply⟩ ?_
    cases call
    case savePeer | savePairing | forgetPeer | saveGrant | revokeGrant => cases writes
    all_goals rfl
  | true =>
    cases call
    case savePeer record =>
      rcases World.write_cases (Option.some.inj answered) with ⟨⟨error, rfl⟩, rfl⟩ |
        ⟨value, database, saved, rfl, rfl⟩
      · exact .unchanged _ rfl
      · obtain ⟨stored, written, same⟩ := Except.map_eq_ok.mp saved
        cases same
        exact .savedPeer world record _ written
    case savePairing record grants =>
      rcases World.write_cases (Option.some.inj answered) with ⟨⟨error, rfl⟩, rfl⟩ |
        ⟨value, database, saved, rfl, rfl⟩
      · exact .unchanged _ rfl
      · obtain ⟨stored, written, same⟩ := Except.map_eq_ok.mp saved
        cases same
        exact .savedPairing world record grants _ written
    case forgetPeer id =>
      rcases World.write_cases (Option.some.inj answered) with ⟨⟨error, rfl⟩, rfl⟩ |
        ⟨value, database, saved, rfl, rfl⟩
      · exact .unchanged _ rfl
      · cases saved
        exact .forgot world id
    case saveGrant grant =>
      rcases World.write_cases (Option.some.inj answered) with ⟨⟨error, rfl⟩, rfl⟩ |
        ⟨value, database, saved, rfl, rfl⟩
      · exact .unchanged _ rfl
      · obtain ⟨stored, written, same⟩ := Except.map_eq_ok.mp saved
        cases same
        exact .savedGrant world grant _ written
    case revokeGrant id capability direction =>
      rcases World.write_cases (Option.some.inj answered) with ⟨⟨error, rfl⟩, rfl⟩ |
        ⟨value, database, saved, rfl, rfl⟩
      · exact .unchanged _ rfl
      · cases saved
        exact .revoked world id capability direction
    all_goals cases writes

/-- The row of a peer was there before, and the peer has not been forgotten, or the row has just
been stored, with a key that is bound to the id. -/
theorem handle_peers (answered : self.handle world call proposal = some (reply, after))
    {row : PeerRow} (member : row ∈ after.database.peers.rows) :
    (row ∈ world.database.peers.rows ∧ ∀ id, forgottenPeer ⟨world, call, reply⟩ = some id →
      row.deviceId ≠ id.asStr) ∨
      ∃ record, storedPeer ⟨world, call, reply⟩ = some record ∧ row = encodePeer record ∧
        self.platform.verifyKey record.deviceId record.publicKey = .ok () := by
  have written := handle_written answered
  generalize after.database = database at written member
  generalize same : (⟨world, call, reply⟩ : Moment) = moment at written
  have sameWorld : world.database = moment.world.database := by rw [← same]
  rw [sameWorld]
  cases written with
  | unchanged moment silent =>
    refine Or.inl ⟨member, fun id forgotten => ?_⟩
    rw [forgottenPeer_of_silent silent] at forgotten
    cases forgotten
  | savedPeer world record database saved =>
    obtain ⟨verified, rfl⟩ := Database.savePeer_eq_ok saved
    rcases Table.mem_upsert.mp member with rfl | ⟨before, -⟩
    · exact Or.inr ⟨record, rfl, rfl, verified⟩
    · exact Or.inl ⟨before, nofun⟩
  | savedPairing world record grants database saved =>
    obtain ⟨verified, -, peers, -⟩ := Database.savePairing_eq_ok saved
    rw [peers] at member
    rcases Table.mem_upsert.mp member with rfl | ⟨before, -⟩
    · exact Or.inr ⟨_, rfl, rfl, verified⟩
    · exact Or.inl ⟨before, nofun⟩
  | forgot world id =>
    obtain ⟨before, other⟩ := Table.mem_deleteWhere.mp member
    refine Or.inl ⟨before, fun named forgotten => ?_⟩
    cases forgotten
    exact of_decide_eq_false other
  | savedGrant world grant database saved =>
    obtain ⟨_, -, peers, -⟩ := Database.saveGrant_eq_ok saved
    exact Or.inl ⟨peers ▸ member, nofun⟩
  | revoked world id capability direction => exact Or.inl ⟨member, nofun⟩

/-- The row of a grant was there before or has just been stored. -/
theorem handle_grants (answered : self.handle world call proposal = some (reply, after))
    {row : GrantRow} (member : row ∈ after.database.grants.rows) :
    row ∈ world.database.grants.rows ∨
      ∃ grant ∈ storedGrants ⟨world, call, reply⟩,
        row.key = grantColumns self.platform grant := by
  have written := handle_written answered
  generalize after.database = database at written member
  generalize same : (⟨world, call, reply⟩ : Moment) = moment at written
  have sameWorld : world.database = moment.world.database := by rw [← same]
  rw [sameWorld]
  cases written with
  | unchanged moment silent => exact Or.inl member
  | savedPeer world record database saved =>
    obtain ⟨-, rfl⟩ := Database.savePeer_eq_ok saved
    exact Or.inl member
  | savedPairing world record grants database saved =>
    obtain ⟨-, -, -, -, rows⟩ := Database.savePairing_eq_ok saved
    rcases (rows row).mp member with ⟨before, -⟩ | ⟨grant, inside, encoded⟩
    · exact Or.inl before
    · exact Or.inr ⟨grant, inside, key_encodeGrant encoded⟩
  | forgot world id => exact Or.inl (Table.mem_deleteWhere.mp member).1
  | savedGrant world grant database saved =>
    obtain ⟨encodedRow, encoded, -, grants⟩ := Database.saveGrant_eq_ok saved
    rw [grants] at member
    rcases Table.mem_upsert.mp member with rfl | ⟨before, -⟩
    · exact Or.inr ⟨grant, by simp [storedGrants], key_encodeGrant encoded⟩
    · exact Or.inl before
  | revoked world id capability direction => exact Or.inl (Table.mem_deleteWhere.mp member).1

end Runtime

end ArcRelay
