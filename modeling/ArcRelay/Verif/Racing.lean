import ArcRelay.Lib.Lock
import ArcRelay.Verif.Conduct

/-!
# How dials and candidates conduct themselves

What a dial guarantees of its dial gate and its races, and what a candidate guarantees
of its race: a race is started under the gate and only after earlier ones of the same
dial have failed; a candidate selects, ends and reports for itself, closes the connection
of an attempt that failed, and does nothing after its report.
-/

namespace ArcRelay

open Async
open Program (Trail trail_concat)

namespace Runtime

variable (self : Runtime)

/-- The dial gates, locked by `lockGate` and given back by `unlockGate`. -/
def gates : Locking self.system Nat where
  acquires
    | .lockGate gate => some gate
    | _ => none
  releases
    | .unlockGate gate => some gate
    | _ => none
  held world gate := world.gates[gate]? = some true
  free {world call proposal reply after gate} answered acquires held := by
    cases call <;> cases acquires
    simp only [system, handle, held] at answered
    cases answered
  taken {world call proposal reply after gate} answered acquires := by
    cases call <;> cases acquires
    simp only [system, handle] at answered
    split at answered
    · rename_i free
      cases answered
      have inside := (List.getElem?_eq_some_iff.mp free).1
      simp [World.setGate, inside]
    · cases answered
  kept {world call proposal reply after gate} answered held releases := by
    have inside := (List.getElem?_eq_some_iff.mp held).1
    cases touches : call.touchesGates with
    | false => rw [((handle_frame answered).gates touches).1, held]
    | true =>
      cases call
      case dialGate key =>
        have made := congrArg Prod.snd (Option.some.inj answered)
        rw [← show (world.dialGate key).2 = after from made]
        unfold World.dialGate
        split
        · exact held
        · exact (List.getElem?_append_left inside).trans held
      case lockGate other =>
        simp only [system, handle] at answered
        split at answered
        · rename_i free
          cases answered
          by_cases same : other = gate
          · simp [World.setGate, same, inside]
          · simpa [World.setGate, same] using held
        · cases answered
      case unlockGate other =>
        cases answered
        have different : other ≠ gate := fun same => releases (by rw [same])
        simpa [World.setGate, different] using held
      all_goals cases touches
  disturbed event held := by
    cases event <;> exact held

end Runtime

/-! ## What has happened to a race -/

/-- The operation has started the race with so many candidates. -/
def Starts (past : List Moment) (race count : Nat) : Prop :=
  ∃ world expected kind candidates recovery, candidates.length = count ∧
    ⟨world, .startRace expected kind candidates recovery, race⟩ ∈ past

/-- A failed candidate of the race was joined. -/
def joinedFailure (race : Nat) : Moment → Bool
  | ⟨_, .joinNext joined, some result⟩ => joined == race && !result.result.isOk
  | _ => false

/-- How many failed candidates of the race have been joined. -/
def joinedFailures (past : List Moment) (race : Nat) : Nat := past.countP (joinedFailure race)

/-- All candidates of the race have been joined, and failed. -/
def Failed (past : List Moment) (race count : Nat) : Prop :=
  count ≤ joinedFailures past race ∨ ∃ world, ⟨world, .joinNext race, none⟩ ∈ past

/-- `race_endpoints_on` is done with a race: it has waited for the end of the others after a winner,
or has joined the failure of every candidate. -/
def RaceReturned (past : List Moment) (race : Nat) : Prop :=
  Asked past (.awaitRace race) ∨ ∃ count, Starts past race count ∧ Failed past race count

/-- No candidate that was joined has succeeded. -/
def Losing (past : List Moment) : Prop :=
  ∀ world race result, ⟨world, .joinNext race, some result⟩ ∈ past → result.result.isOk = false

/-- Every race that was started has failed. -/
structure Settled (past : List Moment) : Prop where
  losing : Losing past
  failed : ∀ race count, Starts past race count → Failed past race count

/-- No registered session was found. -/
def Missed (past : List Moment) (key : SessionKey) : Prop :=
  ∀ world session, (⟨world, .active key.1 key.2, some session⟩ : Moment) ∉ past

/-- The dial gate of the key is held. -/
def Gated (self : Runtime) (key : SessionKey) (past : List Moment) : Prop :=
  ∃ world gate, ⟨world, .dialGate key, gate⟩ ∈ past ∧ self.gates.owns past gate = true

/-- What a dial guarantees of its calls. -/
def DialCall (self : Runtime) (key : SessionKey) (past : List Moment) : Call → Prop
  | .lockGate gate => ∃ world, ⟨world, .dialGate key, gate⟩ ∈ past
  | .unlockGate gate => self.gates.owns past gate = true ∧
    ∀ race count, Starts past race count → RaceReturned past race
  | .active _ _ => Gated self key past
  | .startRace _ _ _ _ => Gated self key past ∧ Settled past ∧ Missed past key
  | .joinNext race => (∃ count, Starts past race count) ∧ Losing past
  | .shutdownRace race => ∃ count, Starts past race count
  | .awaitRace race => (∃ count, Starts past race count) ∧ Asked past (.shutdownRace race)
  | _ => True

/-- The order of a dial's calls: having its gate it looks for a registered session, and having found
one it gives the gate back and does nothing more. -/
structure Paced (key : SessionKey) (past : List Moment) (call : Call) : Prop where
  looks : ∀ moment ∈ past.getLast?, ∀ gate, moment.call = .lockGate gate →
    call = .active key.1 key.2
  leaves : ∀ world session, ⟨world, .active key.1 key.2, some session⟩ ∈ past →
    (∃ gate, call = .unlockGate gate) ∧ ∀ moment ∈ past, ∀ gate, moment.call ≠ .unlockGate gate

/-- What an operation guarantees of its calls on gates and races. -/
def Racing (self : Runtime) (operation : Operation) (past : List Moment) (call : Call) : Prop :=
  (∀ key, operation.dialKey = some key → DialCall self key past call ∧ Paced key past call) ∧
    ∀ race index, operation = .candidate race index → CandidateCall self race index past call

/-! ## Stretches of calls -/

/-- Calls that are neither on gates nor on races, and do not look for a registered session. -/
def Call.aside : Call → Bool
  | .dialGate _ | .lockGate _ | .unlockGate _ | .active _ _ | .startRace _ _ _ _ | .joinNext _
  | .shutdownRace _ | .awaitRace _ => false
  | _ => true

/-- Calls that neither lock nor unlock a gate, nor look for a registered session. -/
def Call.within : Call → Bool
  | .lockGate _ | .unlockGate _ | .active _ _ => false
  | _ => true

/-- A call beside gates and races neither locks nor unlocks a gate. -/
theorem Call.within_of_aside {call : Call} (aside : call.aside = true) : call.within = true := by
  cases call <;> first | rfl | cases aside

/-- The call starts no race. -/
def startsNone : Call → Bool
  | .startRace _ _ _ _ => false
  | _ => true

theorem startsNone_of_aside {call : Call} (aside : call.aside = true) : startsNone call = true := by
  cases call <;> first | rfl | cases aside

section Trails

variable {self : Runtime} {key : SessionKey} {past between now : List Moment} {race count : Nat}
  {sort : Call → Bool}

/-- A trail beside gates and races neither locks nor unlocks a gate. -/
theorem within_of_aside (trail : Trail Call.aside past now) : Trail Call.within past now :=
  trail.mono fun _ => Call.within_of_aside

theorem Gated.trail (gated : Gated self key past) (trail : Trail Call.within past now) :
    Gated self key now := by
  obtain ⟨world, gate, named, owned⟩ := gated
  refine ⟨world, gate, trail.grown named, ?_⟩
  obtain ⟨more, rfl, each⟩ := trail
  rw [Locking.owns_append, owned]
  intro moment member
  have belongs := each moment member
  obtain ⟨world, call, reply⟩ := moment
  cases call <;> first | exact ⟨rfl, rfl⟩ | cases belongs

theorem Missed.trail (missed : Missed past key) (trail : Trail Call.within past now) :
    Missed now key :=
  fun world session member => missed world session (trail.earlier member rfl)

theorem Starts.earlier (trail : Trail startsNone past now) (starts : Starts now race count) :
    Starts past race count := by
  obtain ⟨world, expected, kind, candidates, recovery, length, member⟩ := starts
  exact ⟨world, expected, kind, candidates, recovery, length, trail.earlier member rfl⟩

theorem Starts.mono (subset : past ⊆ now) (starts : Starts past race count) :
    Starts now race count := by
  obtain ⟨world, expected, kind, candidates, recovery, length, member⟩ := starts
  exact ⟨world, expected, kind, candidates, recovery, length, subset member⟩

/-- More calls do not reduce the number of failures that were joined. -/
theorem joinedFailures_le (more : List Moment) (race : Nat) :
    joinedFailures past race ≤ joinedFailures (past ++ more) race := by
  rw [joinedFailures, joinedFailures, List.countP_append]
  exact Nat.le_add_right _ _

theorem Failed.append (failed : Failed past race count) (more : List Moment) :
    Failed (past ++ more) race count := by
  rcases failed with many | ⟨world, member⟩
  · exact Or.inl (many.trans (joinedFailures_le more race))
  · exact Or.inr ⟨world, List.mem_append_left _ member⟩

end Trails

theorem Settled.aside {past now : List Moment} (settled : Settled past)
    (trail : Trail Call.aside past now) : Settled now := by
  refine ⟨fun world race result member =>
    settled.losing world race result (trail.earlier member rfl), fun race count starts => ?_⟩
  have failed := settled.failed race count
    (starts.earlier (trail.mono fun _ => startsNone_of_aside))
  obtain ⟨more, rfl, -⟩ := trail
  exact failed.append more

/-- A race whose candidates are being joined: so many more results can come. -/
structure Running (past : List Moment) (race remaining : Nat) : Prop where
  started : ∃ count, Starts past race count
  losing : Losing past
  /-- Earlier races have failed, and of this one there is no more to come than that. -/
  others : ∀ other count, Starts past other count → Failed past other count ∨
    other = race ∧ count ≤ joinedFailures past race + remaining

section Running

variable {past now : List Moment} {race remaining : Nat}

/-- Calls beside the races leave the number of outstanding results as it is. -/
theorem Running.aside (running : Running past race remaining) (trail : Trail Call.aside past now) :
    Running now race remaining := by
  obtain ⟨count, starts⟩ := running.started
  refine ⟨⟨count, starts.mono trail.grown⟩, fun world race result member =>
    running.losing world race result (trail.earlier member rfl), fun other count starts => ?_⟩
  have before := running.others other count
    (starts.earlier (trail.mono fun _ => startsNone_of_aside))
  obtain ⟨more, rfl, -⟩ := trail
  refine before.imp (fun failed => failed.append more) fun ⟨same, few⟩ => ⟨same, ?_⟩
  exact few.trans (Nat.add_le_add_right (joinedFailures_le more race) _)

/-- A race starts with all its results outstanding if all others have failed. -/
theorem running_start {world : World} {expected : ExpectedPeer} {kind : SessionKind}
    {candidates : List SocketAddr} {recovery : Bool} (settled : Settled past) :
    Running (past ++ [⟨world, .startRace expected kind candidates recovery, race⟩]) race
      candidates.length := by
  refine ⟨⟨_, world, expected, kind, candidates, recovery, rfl, by simp⟩,
    fun joined other result member => ?_, fun other count starts => ?_⟩
  · rcases List.mem_concat_iff.mp member with earlier | last
    · exact settled.losing joined other result earlier
    · cases last
  · obtain ⟨started, expected', kind', candidates', recovery', length, member⟩ := starts
    rcases List.mem_concat_iff.mp member with earlier | last
    · exact Or.inl ((settled.failed other count ⟨started, expected', kind', candidates', recovery',
        length,
        earlier⟩).append _)
    · cases last
      exact Or.inr ⟨rfl, by omega⟩

/-- Joining a failed candidate leaves one outstanding result less. -/
theorem Running.joined (running : Running past race (remaining + 1)) (world : World)
    {result : CandidateResult} (failed : result.result.isOk = false) :
    Running (past ++ [⟨world, .joinNext race, some result⟩]) race remaining := by
  have counted : joinedFailures (past ++ [⟨world, .joinNext race, some result⟩]) race =
      joinedFailures past race + 1 := by
    simp [joinedFailures, List.countP_append, joinedFailure, failed]
  obtain ⟨count, starts⟩ := running.started
  refine ⟨⟨count, starts.mono (List.subset_append_left _ _)⟩, fun world other joined member => ?_,
    fun other count starts => ?_⟩
  · rcases List.mem_concat_iff.mp member with earlier | last
    · exact running.losing world other joined earlier
    · cases last
      exact failed
  · rcases running.others other count (starts.earlier (trail_concat rfl)) with lost | ⟨rfl, few⟩
    · exact Or.inl (lost.append _)
    · exact Or.inr ⟨rfl, by omega⟩

theorem Running.exhausted (running : Running past race 0) : Settled past := by
  refine ⟨running.losing, fun other count starts => ?_⟩
  rcases running.others other count starts with lost | ⟨rfl, few⟩
  · exact lost
  · exact Or.inl few

theorem Running.emptied (running : Running past race remaining) (world : World) :
    Settled (past ++ [⟨world, .joinNext race, none⟩]) := by
  refine ⟨fun joined other result member => ?_, ?_⟩
  · rcases List.mem_concat_iff.mp member with early | last
    · exact running.losing joined other result early
    · cases last
  intro other count starts
  rcases running.others other count (starts.earlier (trail_concat rfl)) with lost | ⟨rfl, -⟩
  · exact lost.append _
  · exact Or.inr ⟨world, by simp⟩

end Running

/-! ## Dials -/

/-- The contract of calls beside gates and races. -/
def asiding : Program.Contract World Call.Reply :=
  ⟨fun _ call => call.aside = true, fun _ _ => True⟩

/-- The contract of what a dial does once it holds its gate and has found no session. -/
def racing (self : Runtime) (key : SessionKey) : Program.Contract World Call.Reply :=
  ⟨fun past call => DialCall self key past call ∧ call.within = true, fun _ _ => True⟩

/-- The contract of a dial from its first call to its last. -/
def dialling (self : Runtime) (key : SessionKey) : Program.Contract World Call.Reply :=
  ⟨fun past call => DialCall self key past call ∧ Paced key past call, fun _ _ => True⟩

/-- No gate was just locked, and no session found. -/
def Idle (key : SessionKey) (past : List Moment) : Prop :=
  (∀ moment ∈ past.getLast?, ∀ gate, moment.call ≠ .lockGate gate) ∧ Missed past key

/-- Where no gate was just locked and no session found, any call is in order. -/
theorem Idle.paced {key : SessionKey} {past : List Moment} (idle : Idle key past) (call : Call) :
    Paced key past call :=
  ⟨fun moment last gate same => absurd same (idle.1 moment last gate),
    fun world session member => absurd member (idle.2 world session)⟩

/-- A call that neither locks a gate nor finds a session leaves any call in order. -/
theorem Idle.concat {key : SessionKey} {past : List Moment} (idle : Idle key past) {moment : Moment}
    (within : moment.call.within = true) : Idle key (past ++ [moment]) := by
  refine ⟨fun other last gate same => ?_, idle.2.trail (trail_concat within)⟩
  rw [List.getLast?_concat] at last
  cases last
  rw [same] at within
  cases within

namespace Runtime

variable {self : Runtime} {key : SessionKey} {past : List Moment} {α ε : Type}
  {post : List Moment → α → Prop}

theorem dialCall_of_aside {call : Call} (aside : call.aside = true) :
    DialCall self key past call := by
  cases call <;> trivial

variable {program : Program Call.Reply α}

theorem racing_of_asiding (ensures : program.Ensures asiding post past) :
    program.Ensures (racing self key) (fun now value => Trail Call.aside past now ∧ post now value)
      past := by
  have trailed : program.Ensures asiding (fun now value => post now value ∧
      Trail Call.aside past now) past := ensures.trail fun _ _ => id
  have relaxed : program.Ensures (racing self key) _ past :=
    trailed.relax (fun _ _ aside => ⟨dialCall_of_aside aside, Call.within_of_aside aside⟩)
      fun _ _ => id
  exact relaxed.mono fun now value known => ⟨known.2, known.1⟩

/-- A part that keeps the contract of a race keeps that of a dial. -/
theorem dialling_of_racing (idle : Idle key past)
    (ensures : program.Ensures (racing self key) post past) :
    program.Ensures (dialling self key) (fun now value =>
      Idle key now ∧ Trail Call.within past now ∧ post now value) past := by
  have trailed : program.Ensures (racing self key) (fun now value => post now value ∧
      Trail Call.within past now) past := ensures.trail fun _ _ => And.right
  have relaxed : program.Ensures (dialling self key) _ past :=
    trailed.relax_along (Idle key) idle (fun now moment idle made => idle.concat made.2)
      (fun now call idle made => ⟨made.1, idle.paced call⟩) fun _ _ => id
  exact relaxed.mono fun now value known => ⟨known.1, known.2.2, known.2.1⟩

theorem asiding_call {call : Call} (aside : call.aside = true) :
    Async.Ensures asiding (fun _ _ => True) past
      (Async.call call : Async Call.Reply ε call.Reply) :=
  ensures_call aside fun _ _ _ => trivial

/-- `require_paired` is beside gates and races. -/
theorem asiding_requirePaired (id : DeviceId) (expected : Option DevicePublicKey) :
    Async.Ensures asiding (fun _ _ => True) past (self.requirePaired id expected) :=
  (ensures_requirePaired (fun _ _ => rfl) id expected).mono fun _ _ _ => trivial

/-- `remember_authenticated_session` is beside gates and races. -/
theorem asiding_rememberAuthenticatedSession (session : Session) (source : EndpointSource) :
    Async.Ensures asiding (fun _ _ => True) past
      (self.rememberAuthenticatedSession session source) := by
  refine ensures_bind (asiding_call rfl) fun _ now _ => ?_
  refine ensures_bind (asiding_call rfl) fun _ _ _ => ?_
  refine ensures_bind (ensures_result (asiding_requirePaired _ _)) fun _ paired _ => ?_
  split
  · exact ensures_pure trivial
  · exact ensures_bind (asiding_call rfl) fun _ _ _ => ensures_pure trivial

/-- Registering the winner waits for the end of its race and is final: no other race follows. -/
theorem ends_registerWinner (contract : Program.Contract World Call.Reply) {race : Nat}
    (shuts : contract.guarantee past (.shutdownRace race))
    (awaits : ∀ world, contract.guarantee (past ++ [⟨world, .shutdownRace race, ()⟩])
      (.awaitRace race))
    (asides : ∀ now call, call.aside = true → contract.guarantee now call) (session : Session)
    (source : EndpointSource) :
    (self.registerWinner race session source).run.Ensures contract (fun now result =>
      (∀ failure, result = .error failure → failure.2 = false) ∧ Asked now (.awaitRace race))
      past := by
  refine ensures_call_bind shuts fun first _ _ => ?_
  refine ensures_call_bind (awaits first) fun second _ _ => ?_
  suffices rest : Program.Ensures contract (fun _ (result : Except (NetworkError × Bool)
      Session) => ∀ failure, result = .error failure → failure.2 = false) _ _ from rest.since.mono fun now _ known =>
    ⟨known.1, ⟨second, .awaitRace race, ()⟩, known.2.subset (by simp), rfl⟩
  refine ensures_call_bind (asides _ _ rfl) fun third reply _ => ?_
  obtain ⟨result, sent⟩ := reply
  cases result with
  | error error =>
    refine ensures_call_bind (asides _ _ rfl) fun fourth _ _ failure same => ?_
    cases same
    rfl
  | ok registered =>
    have remembers : ∀ now, (asDial (self.rememberAuthenticatedSession registered
        source)).run.Ensures contract (fun _ result => ∀ failure, result = .error failure →
          failure.2 = false) now := by
      intro now
      refine Program.ensures_bind (Program.Ensures.relax (asiding_rememberAuthenticatedSession
        registered source) asides fun _ _ _ => trivial) fun later result _ failure same => ?_
      cases result with
      | ok value => cases same
      | error error =>
        cases same
        rfl
    refine ensures_bind_run (remembers _) (fun _ _ _ => nofun) fun _ failure known other same => ?_
    cases same
    exact known failure rfl

/-- Recording the failure of a candidate is beside gates and races. -/
theorem asiding_recordFailure (expected : ExpectedPeer) (source : EndpointSource)
    (address : SocketAddr) :
    (Async.whenever (source = .history) (do
      let _ ← dialAsk (.recordFailure expected.id address)
      return)).run.Ensures asiding (fun _ result => result = .ok ()) past := by
  unfold Async.whenever
  split
  · exact ensures_call_bind rfl fun _ _ _ => rfl
  · exact rfl

/-- The results of a race are joined; it is tried again only if all have failed. -/
theorem racing_joinCandidates {race : Nat} (expected : ExpectedPeer) (source : EndpointSource)
    (remaining : Nat) (failed : RaceFailures) (running : Running past race remaining) :
    (self.joinCandidates race expected source remaining failed).run.Ensures (racing self key)
      (fun now result => ∀ error, result = .error (error, true) → Settled now) past := by
  induction remaining generalizing past failed with
  | zero => exact fun _ _ => running.exhausted
  | succ remaining ih =>
    refine ensures_call_bind ⟨⟨running.started, running.losing⟩, rfl⟩ fun world joined _ => ?_
    cases joined with
    | none => exact fun _ _ => running.emptied world
    | some candidate =>
      dsimp only
      cases outcome : candidate.result with
      | ok session =>
        obtain ⟨count, starts⟩ := running.started
        have still := starts.mono (List.subset_append_left _ [⟨world, .joinNext race, some candidate⟩])
        refine (ends_registerWinner (racing self key) ⟨⟨count, still⟩, rfl⟩ (fun last =>
          ⟨⟨⟨count, still.mono (List.subset_append_left _ _)⟩, ⟨last, .shutdownRace race, ()⟩,
            by simp, rfl⟩, rfl⟩)
          (fun _ _ aside => ⟨dialCall_of_aside aside, Call.within_of_aside aside⟩) session
          source).mono fun now result known error same => ?_
        cases known.1 (error, true) same
      | error error =>
        have lost := running.joined world (show candidate.result.isOk = false by rw [outcome]; rfl)
        refine ensures_bind_run (racing_of_asiding (asiding_recordFailure expected source
          candidate.address)) (fun now _ known => ih _ (lost.aside known.1))
          fun now failure known => ?_
        cases known.2

variable {expected : ExpectedPeer}

/-- `race_endpoints_on` keeps the contract of a race when all earlier races have failed. -/
theorem racing_raceEndpointsOn {kind : SessionKind} (gated : Gated self key past)
    (settled : Settled past) (missed : Missed past key) (addresses : List SocketAddr)
    (source : EndpointSource) (recovery : Bool) :
    (self.raceEndpointsOn addresses expected kind source recovery).run.Ensures (racing self key)
      (fun now result => ∀ error, result = .error (error, true) → Settled now) past := by
  have refuses : (Async.refuse (uniqueEndpoints [] addresses).isEmpty
      (.connect "no dial endpoints", false) : DialAction Unit).run.Ensures (racing self key)
      (fun now result => now = past ∧ ∀ failure, result = .error failure → failure.2 = false)
      past := by
    unfold Async.refuse Async.ofExcept
    refine ⟨rfl, fun failure same => ?_⟩
    split at same <;> cases same
    rfl
  refine ensures_bind_run refuses (fun now _ known => ?_) fun now failure known error same =>
    ?_
  swap
  · cases same
    cases known.2 _ rfl
  obtain ⟨rfl, -⟩ := known
  refine ensures_call_bind ⟨⟨gated, settled, missed⟩, rfl⟩ fun world race _ => ?_
  exact racing_joinCandidates expected source _ _ (running_start settled)

/-- A second race, from a fresh source port, follows only if all candidates of the first failed. -/
theorem racing_races {kind : SessionKind} (gated : Gated self key past) (settled : Settled past)
    (missed : Missed past key) (addresses : List SocketAddr) (source : EndpointSource) :
    (self.raceEndpoints addresses expected kind source).run.Ensures (racing self key)
      (fun _ _ => True) past := by
  have first : (self.raceEndpointsOn addresses expected kind source false).run.Ensures
      (racing self key) _ past :=
    (racing_raceEndpointsOn gated settled missed addresses source false).trail fun _ _ => And.right
  refine Program.ensures_bind first fun between result known => ?_
  obtain ⟨retried, trail⟩ := known
  cases result with
  | ok session => trivial
  | error failure =>
    obtain ⟨error, retrySourcePort⟩ := failure
    dsimp only
    split
    · trivial
    · rename_i retry
      have again : retrySourcePort = true := by
        simp only [Bool.or_eq_true, not_or] at retry
        simpa using retry.1.1
      subst again
      have recovers : (perform .recoveryEndpoint).Ensures (racing self key)
          (fun now _ => Trail Call.aside between now) between :=
        ⟨⟨trivial, rfl⟩, fun _ _ _ => trail_concat rfl⟩
      refine Program.ensures_bind recovers fun now recovered aside => ?_
      cases recovered with
      | error error => trivial
      | ok _ =>
        have further : Trail Call.within past now := trail.trans (within_of_aside aside)
        refine Program.ensures_bind (racing_raceEndpointsOn (gated.trail further)
          ((retried error rfl).aside aside) (missed.trail further) addresses source true)
          fun _ _ _ => trivial

/-! ## The end of a race -/

/-- Every race that was started since an earlier moment is done. -/
def NewReturned (past now : List Moment) : Prop :=
  ∀ race count, Starts now race count → Starts past race count ∨ RaceReturned now race

/-- The contract of what follows the start of a race. -/
def returning : Program.Contract World Call.Reply :=
  ⟨fun _ call => startsNone call = true, fun _ _ => True⟩

/-- The contract of a function that starts races with these candidates only. -/
def offering (candidates : List SocketAddr) : Program.Contract World Call.Reply :=
  ⟨fun _ call => ∀ expected kind others recovery, call = .startRace expected kind others recovery →
    others = candidates, fun _ _ => True⟩

section Returning

variable {past : List Moment} {race count remaining : Nat} {α : Type}

theorem returning_of_asiding {post : List Moment → α → Prop} {program : Program Call.Reply α}
    (ensures : program.Ensures asiding post past) : program.Ensures returning post past :=
  ensures.relax (fun _ _ => startsNone_of_aside) fun _ _ => id

theorem offering_of_returning {candidates : List SocketAddr} {post : List Moment → α → Prop}
    {program : Program Call.Reply α} (ensures : program.Ensures returning post past) :
    program.Ensures (offering candidates) post past := by
  refine ensures.relax (fun _ call none expected kind others recovery same => ?_) fun _ _ => id
  subst same
  cases none

/-- A race is over when its results have been joined. -/
theorem returning_joinCandidates (expected : ExpectedPeer) (source : EndpointSource)
    (failed : RaceFailures) (starts : Starts past race count)
    (few : count ≤ joinedFailures past race + remaining) :
    (self.joinCandidates race expected source remaining failed).run.Ensures returning
      (fun now _ => RaceReturned now race) past := by
  induction remaining generalizing past failed with
  | zero => exact .inr ⟨count, starts, .inl few⟩
  | succ remaining ih =>
    refine ensures_call_bind rfl fun world joined _ => ?_
    have still := starts.mono (List.subset_append_left past [⟨world, .joinNext race, joined⟩])
    cases joined with
    | none => exact .inr ⟨count, still, .inr ⟨world, by simp⟩⟩
    | some candidate =>
      dsimp only
      cases outcome : candidate.result with
      | ok session =>
        exact (ends_registerWinner returning rfl (fun _ => rfl) (fun _ _ => startsNone_of_aside)
          session source).mono fun _ _ known => .inl known.2
      | error error =>
        have counted : joinedFailures (past ++ [⟨world, .joinNext race, some candidate⟩]) race =
            joinedFailures past race + 1 := by
          have lost : candidate.result.isOk = false := by
            rw [outcome]
            rfl
          simp [joinedFailures, List.countP_append, joinedFailure, lost]
        refine ensures_bind_run (returning_of_asiding (asiding_recordFailure expected source
          candidate.address)).since (fun now _ known => ?_) fun now _ known => ?_
        · obtain ⟨more, rfl⟩ := known.2
          refine ih _ (still.mono (List.subset_append_left _ _)) ?_
          have grown : joinedFailures (past ++ [⟨world, .joinNext race, some candidate⟩]) race ≤
              joinedFailures (past ++ [⟨world, .joinNext race, some candidate⟩] ++ more) race :=
            joinedFailures_le more race
          omega
        · cases known.1

/-- `race_endpoints_on` starts a race with the first sixteen endpoints, and when it returns, it is
done with that race. -/
theorem raceReturned_raceEndpointsOn (addresses : List SocketAddr) (expected : ExpectedPeer)
    (kind : SessionKind) (source : EndpointSource) (recovery : Bool) :
    (self.raceEndpointsOn addresses expected kind source recovery).run.Ensures
      (offering (uniqueEndpoints [] addresses)) (fun now _ => NewReturned past now) past := by
  have refuses : (Async.refuse (uniqueEndpoints [] addresses).isEmpty
      (.connect "no dial endpoints", false) : DialAction Unit).run.Ensures
      (offering (uniqueEndpoints [] addresses)) (fun now _ => now = past) past := rfl
  refine ensures_bind_run refuses (fun now _ same => ?_) fun now _ same => ?_
  swap
  · subst same
    exact fun race count => .inl
  subst same
  refine ensures_call_bind (fun _ _ _ _ same => ?_) fun world begun _ => ?_
  · cases same
    rfl
  have starts : Starts (now ++ [⟨world, .startRace expected kind (uniqueEndpoints [] addresses)
      recovery, begun⟩]) begun (uniqueEndpoints [] addresses).length :=
    ⟨world, expected, kind, _, recovery, rfl, by simp⟩
  have joins : (self.joinCandidates begun expected source (uniqueEndpoints [] addresses).length
      ⟨[], false, false⟩).run.Ensures returning _ _ :=
    (returning_joinCandidates expected source _ starts (Nat.le_add_left _ _)).trail fun _ _ => id
  refine offering_of_returning (joins.mono fun last _ known race count starts => ?_)
  obtain ⟨startedAt, wanted, sort, candidates, fresh, length, member⟩ := starts
  rcases List.mem_concat_iff.mp (known.2.earlier member rfl) with earlier | start
  · exact .inl ⟨startedAt, wanted, sort, candidates, fresh, length, earlier⟩
  · cases start
    exact .inr known.1

theorem RaceReturned.append (returned : RaceReturned past race) (more : List Moment) :
    RaceReturned (past ++ more) race := by
  rcases returned with ⟨moment, member, asked⟩ | ⟨count, starts, failed⟩
  · exact .inl ⟨moment, List.mem_append_left _ member, asked⟩
  · exact .inr ⟨count, starts.mono (List.subset_append_left _ _), failed.append more⟩

theorem newReturned_of_aside {now : List Moment} (trail : Trail Call.aside past now) :
    NewReturned past now :=
  fun _ _ starts => .inl (starts.earlier (trail.mono fun _ => startsNone_of_aside))

/-- If the races of two successive parts are done, so are those of both together. -/
theorem NewReturned.trans {between now : List Moment} (first : NewReturned past between)
    (second : NewReturned between now) (grown : between <+: now) : NewReturned past now := by
  intro race count starts
  obtain ⟨more, rfl⟩ := grown
  rcases second race count starts with earlier | returned
  · exact (first race count earlier).imp_right fun before => RaceReturned.append before more
  · exact .inr returned

/-- The second race of `race_endpoints` has the same candidates as the first, and when it returns,
it is done with its races. -/
theorem newReturned_raceEndpoints (addresses : List SocketAddr) (expected : ExpectedPeer)
    (kind : SessionKind) (source : EndpointSource) :
    (self.raceEndpoints addresses expected kind source).run.Ensures
      (offering (uniqueEndpoints [] addresses)) (fun now _ => NewReturned past now) past := by
  refine Program.ensures_bind (raceReturned_raceEndpointsOn addresses expected kind source false)
    fun between result first => ?_
  cases result with
  | ok session => exact first
  | error failure =>
    dsimp only
    split
    · exact first
    · have recovers : (perform .recoveryEndpoint).Ensures (offering (uniqueEndpoints [] addresses))
          (fun now _ => NewReturned past now) between := ⟨nofun, fun _ _ _ =>
        first.trans (newReturned_of_aside (trail_concat rfl)) (List.prefix_append _ _)⟩
      refine Program.ensures_bind recovers fun now recovered second => ?_
      cases recovered with
      | error error => exact second
      | ok _ =>
        exact Program.ensures_bind (raceReturned_raceEndpointsOn addresses expected kind source
          true).since fun _ _ known => second.trans known.1 known.2

end Returning

/-- `race_endpoints` keeps the contract of a race and is done with the races it has started. -/
theorem racing_raceEndpoints {past now : List Moment} {kind : SessionKind}
    (gated : Gated self key now) (settled : Settled now) (missed : Missed now key)
    (addresses : List SocketAddr) (source : EndpointSource) (trail : Trail Call.aside past now) :
    (self.raceEndpoints addresses expected kind source).run.Ensures (racing self key)
      (fun later _ => NewReturned past later) now := by
  have both := (racing_races gated settled missed addresses source).and
    (newReturned_raceEndpoints addresses expected kind source).since
  have races : (self.raceEndpoints addresses expected kind source).run.Ensures (racing self key)
      _ now := both.relax (fun _ _ => And.left) fun _ _ => id
  refine races.mono fun later _ known => ?_
  exact (newReturned_of_aside trail).trans known.2.1 known.2.2

/-! ## The gate around a dial -/

/-- What a dial ends with: it does not stop with its gate just taken, and a session that was found
is returned, and then no race was started. -/
def Finds (key : SessionKey) (now : List Moment) (result : Except NetworkError Session) : Prop :=
  (∀ moment ∈ now.getLast?, ∀ gate, moment.call ≠ .lockGate gate) ∧
    ∀ world session, ⟨world, .active key.1 key.2, some session⟩ ∈ now →
    result = .ok session ∧ ∀ race count, ¬ Starts now race count

/-- Every gate that was held is still held. -/
def Keeps (self : Runtime) (past now : List Moment) : Prop :=
  ∀ gate, self.gates.owns past gate = true → self.gates.owns now gate = true

/-- Only calls beside gates and races have been made, so no gate is taken. -/
def Outside (past : List Moment) : Prop := ∀ moment ∈ past, moment.call.aside = true

/-- No session was looked for, no race started and no gate given back. -/
def Early (past : List Moment) : Prop :=
  ∀ moment ∈ past, moment.call.aside = true ∨ (∃ key, moment.call = .dialGate key) ∨
    ∃ gate, moment.call = .lockGate gate

theorem keeps_of_trail {now : List Moment} (trail : Trail Call.within past now) :
    Keeps self past now := by
  intro gate owned
  obtain ⟨more, rfl, each⟩ := trail
  rw [Locking.owns_append, owned]
  intro moment member
  have belongs := each moment member
  obtain ⟨world, call, reply⟩ := moment
  cases call <;> first | exact ⟨rfl, rfl⟩ | cases belongs

/-- Before the first lookup every call is beside gates and races or takes a gate. -/
theorem Early.sort (early : Early past) {moment : Moment} (member : moment ∈ past)
    (unaside : moment.call.aside = false) :
    (∃ key, moment.call = .dialGate key) ∨ ∃ gate, moment.call = .lockGate gate := by
  rcases early moment member with aside | gates
  · simp [unaside] at aside
  · exact gates

theorem Early.missed (early : Early past) : Missed past key := by
  intro world session member
  rcases early.sort member rfl with ⟨_, same⟩ | ⟨_, same⟩ <;> cases same

theorem Early.unstarted (early : Early past) (race count : Nat) : ¬ Starts past race count := by
  rintro ⟨world, expected, kind, candidates, recovery, -, member⟩
  rcases early.sort member rfl with ⟨_, same⟩ | ⟨_, same⟩ <;> cases same

theorem Early.unreleased (early : Early past) :
    ∀ moment ∈ past, ∀ gate, moment.call ≠ .unlockGate gate := by
  intro moment member gate same
  rcases early.sort member (by rw [same]; rfl) with ⟨_, other⟩ | ⟨_, other⟩ <;>
    cases same.symm.trans other

theorem Early.settled (early : Early past) : Settled past := by
  refine ⟨fun world race result member => ?_, fun race count starts =>
    absurd starts (early.unstarted race count)⟩
  rcases early.sort member rfl with ⟨_, same⟩ | ⟨_, same⟩ <;> cases same

theorem Early.concat (early : Early past) {moment : Moment}
    (belongs : (∃ key, moment.call = .dialGate key) ∨ ∃ gate, moment.call = .lockGate gate) :
    Early (past ++ [moment]) := by
  intro other member
  rcases List.mem_concat_iff.mp member with earlier | rfl
  · exact early other earlier
  · exact Or.inr belongs

theorem Outside.early (outside : Outside past) : Early past :=
  fun moment member => Or.inl (outside moment member)

theorem Outside.idle (outside : Outside past) : Idle key past := by
  refine ⟨fun moment last gate same => ?_, outside.early.missed⟩
  have aside := outside moment (List.mem_of_getLast? last)
  rw [same] at aside
  cases aside

theorem Outside.aside {now : List Moment} (outside : Outside past)
    (trail : Trail Call.aside past now) : Outside now := by
  obtain ⟨more, rfl, each⟩ := trail
  intro other member
  rcases List.mem_append.mp member with earlier | later
  · exact outside other earlier
  · exact each other later

theorem finds_of_outside (outside : Outside past) (result : Except NetworkError Session) :
    Finds key past result :=
  ⟨(outside.idle : Idle key past).1, fun world session member =>
    absurd member (outside.early.missed world session)⟩

/-- The part of a dial under its gate keeps the contract of a dial. -/
theorem dialling_activeOr {dial : Action Session} (gated : Gated self key past) (early : Early past)
    (dials : ∀ now, Gated self key now → Settled now → Missed now key →
      dial.run.Ensures (racing self key) (fun later _ => NewReturned now later) now) :
    (activeOr key.1 key.2 dial).run.Ensures (dialling self key)
      (fun now result => Keeps self past now ∧ Finds key now result ∧
        (∀ gate, Paced key now (.unlockGate gate)) ∧
          ∀ race count, Starts now race count → RaceReturned now race) past := by
  have first : Paced key past (.active key.1 key.2) :=
    ⟨fun _ _ _ _ => rfl, fun world session member =>
      absurd member (early.missed world session)⟩
  refine ensures_call_bind ⟨gated, first⟩ fun world active _ => ?_
  let look : Moment := ⟨world, .active key.1 key.2, active⟩
  have looked : ∀ moment ∈ (past ++ [look]).getLast?, ∀ gate, moment.call ≠ .lockGate gate := by
    intro moment last gate same
    rw [List.getLast?_concat] at last
    cases last
    cases same
  have unlocked : ∀ gate, self.gates.owns (past ++ [⟨world, .active key.1 key.2, active⟩]) gate =
      self.gates.owns past gate := fun gate => Locking.owns_concat_of_other _ nofun nofun
  have unstarted : ∀ race count,
      ¬ Starts (past ++ [⟨world, .active key.1 key.2, active⟩]) race count := by
    exact fun race count starts => early.unstarted race count (starts.earlier (trail_concat rfl))
  have found : ∀ looked session, ⟨looked, .active key.1 key.2, some session⟩ ∈
      past ++ [⟨world, .active key.1 key.2, active⟩] → active = some session := by
    intro looked session member
    rcases List.mem_concat_iff.mp member with earlier | last
    · exact absurd earlier (early.missed looked session)
    · cases last
      rfl
  cases active with
  | some session =>
    refine ⟨fun gate owned => (unlocked gate).trans owned, ⟨looked, fun looked other member => ?_⟩,
      fun gate => ⟨fun moment last other same => absurd same (looked moment last other),
        fun _ _ _ => ⟨⟨gate, rfl⟩, fun moment member other => ?_⟩⟩,
      fun race count starts => absurd starts (unstarted race count)⟩
    · cases found looked other member
      exact ⟨rfl, unstarted⟩
    · rcases List.mem_concat_iff.mp member with earlier | rfl
      · exact early.unreleased moment earlier other
      · simp
  | none =>
    have missed : Missed (past ++ [⟨world, .active key.1 key.2, none⟩]) key :=
      fun looked session member => by cases found looked session member
    have settled : Settled (past ++ [⟨world, .active key.1 key.2, none⟩]) := by
      refine ⟨fun joined race result member => ?_, fun race count starts =>
        absurd starts (unstarted race count)⟩
      rcases List.mem_concat_iff.mp member with earlier | last
      · exact early.settled.losing joined race result earlier
      · cases last
    obtain ⟨named, gate, member, owned⟩ := gated
    have still : Gated self key (past ++ [⟨world, .active key.1 key.2, none⟩]) :=
      ⟨named, gate, List.mem_append_left _ member, (unlocked gate).trans owned⟩
    have idle : Idle key (past ++ [⟨world, .active key.1 key.2, none⟩]) := ⟨looked, missed⟩
    refine (dialling_of_racing idle (dials _ still settled missed)).mono fun now result known => ?_
    obtain ⟨idle, trail, returned⟩ := known
    exact ⟨fun gate owned => keeps_of_trail trail gate ((unlocked gate).trans owned),
      ⟨idle.1, fun looked session member => absurd member (idle.2 looked session)⟩,
      fun gate => idle.paced _,
      fun race count starts => (returned race count starts).resolve_left (unstarted race count)⟩

/-- A dial that takes its gate keeps the contract of a dial. -/
theorem dialling_withDialGate {dial : Action Session} (outside : Outside past)
    (dials : ∀ now, Gated self key now → Settled now → Missed now key →
      dial.run.Ensures (racing self key) (fun later _ => NewReturned now later) now) :
    (withDialGate key (activeOr key.1 key.2 dial)).run.Ensures (dialling self key) (Finds key)
      past := by
  refine ensures_call_bind ⟨trivial, outside.idle.paced _⟩ fun first gate _ => ?_
  refine ensures_call_bind ⟨⟨first, by simp⟩, (outside.idle.concat rfl).paced _⟩
    fun second _ _ => ?_
  have owned : self.gates.owns (past ++ [⟨first, .dialGate key, gate⟩] ++
      [⟨second, .lockGate gate, ()⟩]) gate = true := by
    rw [Locking.owns_concat]
    exact if_pos rfl
  have ready : Early (past ++ [⟨first, .dialGate key, gate⟩] ++
      [⟨second, .lockGate gate, ()⟩]) :=
    (outside.early.concat (Or.inl ⟨key, rfl⟩)).concat (Or.inr ⟨gate, rfl⟩)
  refine ensures_result_bind
    ((dialling_activeOr ⟨first, gate, by simp, owned⟩ ready dials).mono
    fun now result known => ?_)
  refine ensures_call_bind ⟨⟨known.1 gate owned, known.2.2.2⟩, known.2.2.1 gate⟩
    fun third _ _ => ⟨by simp, fun looked session member => ?_⟩
  have before : ∀ moment ∈ now ++ [⟨third, .unlockGate gate, ()⟩],
      moment.call ≠ .unlockGate gate → moment ∈ now := by
    intro moment member other
    rcases List.mem_concat_iff.mp member with earlier | last
    · exact earlier
    · exact absurd (congrArg Program.Moment.call last) other
  obtain ⟨same, unstarted⟩ := known.2.1.2 looked session (before _ member nofun)
  refine ⟨same, fun race count starts => unstarted race count ?_⟩
  obtain ⟨started, expected, kind, candidates, recovery, length, member⟩ := starts
  exact ⟨started, expected, kind, candidates, recovery, length, before _ member nofun⟩

/-! ## The dials -/

theorem dialling_of_asiding (outside : Outside past) (ensures : program.Ensures asiding post past) :
    program.Ensures (dialling self key) (fun now value => Outside now ∧ post now value) past :=
  (dialling_of_racing outside.idle (racing_of_asiding ensures)).mono fun _ _ known =>
    ⟨outside.aside known.2.2.1, known.2.2.2⟩

theorem dialling_before {next : α → Action Session} {program : Action α} (outside : Outside past)
    (aside : Async.Ensures asiding (fun _ _ => True) past program)
    (rest : ∀ now value, Outside now →
      (next value).run.Ensures (dialling self key) (Finds key) now) :
    (program >>= next).run.Ensures (dialling self key) (Finds key) past :=
  ensures_bind_run (dialling_of_asiding outside aside) (fun now value known =>
    rest now value known.1) fun _ error known => finds_of_outside known.1 (.error error)

theorem racing_before {now : List Moment} {next : α → Action Session} {program : Action α}
    (trail : Trail Call.aside past now)
    (aside : Async.Ensures asiding (fun _ _ => True) now program)
    (rest : ∀ later value, Trail Call.aside past later →
      (next value).run.Ensures (racing self key) (fun last _ => NewReturned past last) later) :
    (program >>= next).run.Ensures (racing self key) (fun last _ => NewReturned past last) now :=
  ensures_bind_run (racing_of_asiding aside) (fun later value known =>
    rest later value (trail.trans known.1)) fun _ _ known =>
      newReturned_of_aside (trail.trans known.1)

theorem outside_nil : Outside [] := by
  intro moment member
  cases member

/-- `connect`. -/
theorem dialling_connect (peer : PeerAdvertisement) (kind : SessionKind) :
    (self.connect peer kind).run.Ensures (dialling self (peer.deviceId, kind))
      (Finds (peer.deviceId, kind)) [] := by
  refine dialling_before outside_nil (ensures_ofExcept fun _ _ => trivial) fun first _ outside => ?_
  have trusts : Async.Ensures asiding (fun _ _ => True) first
      (self.requireTrust kind peer.deviceId peer.publicKey) := by
    unfold requireTrust
    split
    · exact ensures_pure trivial
    · exact ensures_bind (asiding_requirePaired _ _) fun _ _ _ => ensures_pure trivial
  refine dialling_before outside trusts fun second _ outside => ?_
  exact dialling_withDialGate outside fun now gated settled missed =>
    racing_raceEndpoints gated settled missed _ _ (.refl now)

/-- `connect_remembered`. -/
theorem dialling_connectRemembered (id : DeviceId) (kind : SessionKind) :
    (self.connectRemembered id kind).run.Ensures (dialling self (id, kind))
      (Finds (id, kind)) [] := by
  refine dialling_before outside_nil (asiding_requirePaired _ _) fun first record outside => ?_
  refine dialling_withDialGate outside fun now gated settled missed => ?_
  refine racing_before (.refl now) (asiding_call rfl) fun second stored trail => ?_
  refine racing_before trail (ensures_ofExcept fun _ _ => trivial) fun third endpoints trail => ?_
  refine racing_before trail (ensures_ofExcept fun _ _ => trivial) fun fourth _ trail => ?_
  exact racing_raceEndpoints (gated.trail (within_of_aside trail)) (settled.aside trail)
    (missed.trail (within_of_aside trail)) _ _ trail

/-- `connect_paired_at`. -/
theorem dialling_connectPairedAt (id : DeviceId) (addresses : List SocketAddr)
    (kind : SessionKind) :
    (self.connectPairedAt id addresses kind).run.Ensures (dialling self (id, kind))
      (Finds (id, kind)) [] := by
  refine dialling_before outside_nil (asiding_requirePaired _ _) fun first record outside => ?_
  refine dialling_before outside (ensures_ofExcept fun _ _ => trivial) fun second _ outside =>
    ?_
  refine dialling_before outside (ensures_ofExcept fun _ _ => trivial) fun third _ outside =>
    ?_
  exact dialling_withDialGate outside fun now gated settled missed =>
    racing_raceEndpoints gated settled missed _ _ (.refl now)

/-! ## All operations -/

/-- What a dial that returns has found. -/
def DialEnds (operation : Operation) (past : List Moment) (outcome : Outcome) : Prop :=
  ∀ key, operation.dialKey = some key → ∃ result, outcome = .session result ∧
    Finds key past result

/-- An operation that dials conducts itself as a dial. -/
theorem racing_of_dialling {operation : Operation} {program : Action Session}
    (dials : operation.dialKey = some key)
    (ensures : program.run.Ensures (dialling self key) (Finds key) []) :
    (Outcome.session <$> program.run).Ensures ⟨Racing self operation, fun _ _ => True⟩
      (DialEnds operation) [] := by
  have relaxed : program.run.Ensures ⟨Racing self operation, fun _ _ => True⟩ (Finds key) [] := by
    refine ensures.relax (fun now call made => ⟨fun other same => ?_, fun race index same => ?_⟩)
      fun _ _ => id
    · obtain rfl : key = other := Option.some.inj (dials.symm.trans same)
      exact made
    · rw [same] at dials
      cases dials
  refine Program.ensures_map (relaxed.mono fun now result found other same => ?_)
  obtain rfl : key = other := Option.some.inj (dials.symm.trans same)
  exact ⟨result, rfl, found⟩

/-- The conduct demands nothing of an operation that neither dials nor is a candidate. -/
theorem racing_of_other {operation : Operation} (undialled : operation.dialKey = none)
    (uncandid : ∀ race index, operation ≠ .candidate race index)
    (program : Program Call.Reply Outcome) :
    program.Ensures ⟨Racing self operation, fun _ _ => True⟩ (DialEnds operation) [] := by
  have never : ∀ key, operation.dialKey ≠ some key := by simp [undialled]
  exact Program.ensures_true (fun past call => ⟨fun key same => absurd same (never key),
    fun race index same => absurd same (uncandid race index)⟩)
    (fun past value key same => absurd same (never key)) program

/-- How the operations conduct themselves on gates and races. -/
def racingConduct (self : Runtime) : Conduct self.system where
  guarantee := Racing self
  post := DialEnds
  programs operation := by
    cases operation with
    | connect peer kind => exact racing_of_dialling rfl (dialling_connect peer kind)
    | connectRemembered id kind => exact racing_of_dialling rfl (dialling_connectRemembered id kind)
    | connectPairedAt id addresses kind =>
      exact racing_of_dialling rfl (dialling_connectPairedAt id addresses kind)
    | candidate race index =>
      have relaxed : (self.candidate race index).Ensures
          ⟨Racing self (.candidate race index), fun _ _ => True⟩ (fun _ _ => True) [] := by
        refine (candidly_candidate race index).relax
          (fun now call made => ⟨nofun, fun other place same => ?_⟩) fun _ _ => id
        cases same
        exact made.2
      exact Program.ensures_map (relaxed.mono fun _ _ _ => nofun)
    | connectInputRelay | acceptInputRelay | acceptIncoming | cleanup | completePairing
    | confirmPairing | forget | disconnect | setPeerAutoConnect | grant | revoke =>
      exact racing_of_other rfl (by simp) _

/-- The conduct of the operations, on gates and races as well as otherwise. -/
def fullConduct (self : Runtime) : Conduct self.system := self.conduct.and self.racingConduct

end Runtime

end ArcRelay
