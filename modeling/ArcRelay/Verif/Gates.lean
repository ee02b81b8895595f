import ArcRelay.Verif.Forgetting
import ArcRelay.Verif.Racing

/-!
# Concurrent dials share one session

All dials with one key take the same gate, because `session_dials` never loses an
entry, and hold it while they look for a registered session, race and register. So at
any time at most one race for a key is in progress, and a dial that finds a registered
session under the gate returns it without a race.
-/

namespace ArcRelay

namespace Runtime

variable {self : Runtime}

/-- What a runtime is after a list of inputs. -/
abbrev after (self : Runtime) (database : Database)
    (inputs : Inputs) :
    Jobs :=
  Run.exec self.system.step (System.initial (World.fresh database)) inputs

/-- Gates are held by one dial at a time, and every gate a dial was given is still that of its
key. -/
structure GatesKept (runtime : Runtime) (history : History) (world : World) : Prop where
  exclusive : runtime.gates.Exclusive history world
  named : ∀ entry ∈ history, ∀ before key gate, entry.moment = ⟨before, .dialGate key, gate⟩ →
    world.sessionDials key = some gate

variable {key : SessionKey} {world : World}

/-- A call keeps the gate of every key. -/
theorem sessionDials_kept {after : World} {call : Call} {proposal reply : call.Reply}
    (answered : self.handle world call proposal = some (reply, after)) {gate : Nat}
    (named : world.sessionDials key = some gate) :
    after.sessionDials key = some gate := by
  cases touches : call.touchesGates with
  | false => rw [((handle_frame answered).gates touches).2, named]
  | true =>
    cases call
    case dialGate other =>
      rw [← show (world.dialGate other).2 = after from congrArg Prod.snd (Option.some.inj answered)]
      unfold World.dialGate
      split
      · exact named
      · rename_i new
        have different : key ≠ other := fun same => by simp [← same, named] at new
        simpa [different] using named
    case lockGate other =>
      simp only [handle] at answered
      split at answered <;> cases answered
      exact named
    case unlockGate other =>
      cases answered
      exact named
    all_goals cases touches

theorem sessionDials_given {after : World} {gate proposal : Nat}
    (answered : self.handle world (.dialGate key) proposal = some (gate, after)) :
    after.sessionDials key = some gate := by
  have pair := Option.some.inj answered
  rw [← show (world.dialGate key).2 = after from congrArg Prod.snd pair,
    ← show (world.dialGate key).1 = gate from congrArg Prod.fst pair]
  unfold World.dialGate
  split
  · assumption
  · simp

variable {index : Nat}

/-- One call keeps the gates. -/
theorem gatesKept_call {operation : Operation} {history : History} {after : World} {call : Call}
    {proposal reply : call.Reply} (kept : GatesKept self history world)
    (proper : Proper self operation (System.momentsOf history index) call)
    (racing : Racing self operation (System.momentsOf history index) call)
    (answered : self.handle world call proposal = some (reply, after)) :
    GatesKept self (history ++ [⟨index, operation, ⟨world, call, reply⟩⟩]) after := by
  refine ⟨kept.exclusive.call answered fun gate releases => ?_, fun entry member before key gate
    same => ?_⟩
  · -- a gate is unlocked by a dial that holds it
    cases call <;> cases releases
    obtain ⟨key, dials⟩ := Option.isSome_iff_exists.mp proper
    exact (racing.1 key dials).1.1
  · rcases List.mem_concat_iff.mp member with earlier | rfl
    · exact sessionDials_kept answered (kept.named entry earlier before key gate same)
    · cases same
      exact sessionDials_given answered

theorem gatesKept_run (self : Runtime) (database : Database) (inputs : Inputs) :
    self.fullConduct.Kept (self.after database inputs) ∧ GatesKept self
      (self.after database inputs).history (self.after database inputs).world := by
  refine self.fullConduct.invariant_always (GatesKept self) ⟨Locking.exclusive_nil _, by simp⟩
    (fun _ kept guaranteed answered => gatesKept_call kept guaranteed.1 guaranteed.2 answered)
    (fun event kept => ?_) inputs
  refine ⟨kept.exclusive.disturb event, fun entry member before key gate same => ?_⟩
  have named := kept.named entry member before key gate same
  cases event <;> exact named

/-! ## Races in progress -/

/-- A race that a dial has started is in progress: `race_endpoints_on` is not done with it. -/
def InProgress (past : List Moment) (race : Nat) : Prop :=
  (∃ count, Starts past race count) ∧ ¬ RaceReturned past race

variable {before : List Moment} {pool : Jobs}
  {job : Job Call.Reply Outcome World Operation}

theorem dial_moment (kept : self.fullConduct.Kept pool) (found : pool.jobs[index]? = some job)
    (dials : job.operation.dialKey = some key) {after : List Moment} {moment : Moment}
    (split : job.past = before ++ moment :: after) : DialCall self key before moment.call := by
  rw [kept.recorded.past index job found] at split
  obtain ⟨entry, member, rfl, -, guaranteed⟩ := kept.entries.moment split
  obtain ⟨known, present, same⟩ := kept.recorded.known entry member
  obtain rfl : known = job := Option.some.inj (present.symm.trans found)
  rw [same] at dials
  exact (guaranteed.2.1 key dials).1

theorem returned_of_unlocked (kept : self.fullConduct.Kept pool)
    (found : pool.jobs[index]? = some job) (dials : job.operation.dialKey = some key)
    {after : List Moment} {gate race count : Nat}
    (split : job.past = before ++ ⟨world, .unlockGate gate, ()⟩ :: after)
    (starts : Starts before race count) : RaceReturned before race :=
  (dial_moment kept found dials split).2 race count starts

/-- A dial with a race in progress holds the gate of its key. -/
theorem gated_of_inProgress (kept : self.fullConduct.Kept pool) {race : Nat}
    (found : pool.jobs[index]? = some job) (dials : job.operation.dialKey = some key)
    (inProgress : InProgress job.past race) : Gated self key job.past := by
  obtain ⟨⟨count, world, expected, kind, candidates, recovery, length, member⟩, unreturned⟩ :=
    inProgress
  obtain ⟨before, after, split⟩ := List.append_of_mem member
  obtain ⟨⟨named, gate, given, owned⟩, -, -⟩ := dial_moment kept found dials split
  refine ⟨named, gate, ?_, ?_⟩
  · rw [split]
    exact List.mem_append_left _ given
  · rw [split]
    refine self.gates.owns_append_of_unreleased owned fun moment inside => ?_
    rcases List.mem_cons.mp inside with rfl | later
    · nofun
    · -- to give the gate back the dial would have to be done with the race
      intro releases
      obtain ⟨past, call, reply⟩ := moment
      cases call <;> cases releases
      obtain ⟨between, rest, rfl⟩ := List.append_of_mem later
      have unlocked : job.past = (before ++ ⟨world, .startRace expected kind candidates recovery,
          race⟩ :: between) ++ ⟨past, .unlockGate gate, reply⟩ :: rest := by
        rw [split, List.append_assoc, List.cons_append]
      have done : RaceReturned _ race := returned_of_unlocked kept found dials unlocked
        ⟨world, expected, kind, candidates, recovery, length, by simp⟩
      refine unreturned ?_
      rw [unlocked]
      exact RaceReturned.append done _

theorem failed_of_later (kept : self.fullConduct.Kept pool) {race : Nat}
    (found : pool.jobs[index]? = some job) (dials : job.operation.dialKey = some key)
    {after : List Moment} {expected : ExpectedPeer} {kind : SessionKind}
    {candidates : List SocketAddr} {recovery : Bool}
    (split : job.past = before ++ ⟨world, .startRace expected kind candidates recovery, race⟩ ::
      after) {earlier count : Nat} (starts : Starts before earlier count) :
    Failed job.past earlier count := by
  obtain ⟨-, settled, -⟩ := dial_moment kept found dials split
  rw [split]
  exact (settled.failed earlier count starts).append _

/-- A dial has one race in progress at most. -/
theorem inProgress_unique (kept : self.fullConduct.Kept pool) {race race' : Nat}
    (found : pool.jobs[index]? = some job) (dials : job.operation.dialKey = some key)
    (first : InProgress job.past race) (second : InProgress job.past race') : race = race' := by
  obtain ⟨⟨count, world, expected, kind, candidates, recovery, length, member⟩, unreturned⟩ := first
  obtain ⟨⟨count', world', expected', kind', candidates', recovery', length', member'⟩,
    unreturned'⟩ := second
  obtain ⟨before, after, split⟩ := List.append_of_mem member
  obtain ⟨before', after', split'⟩ := List.append_of_mem member'
  rcases List.split_order (split.symm.trans split') with ⟨-, same⟩ | ⟨middle, rfl⟩ | ⟨middle, rfl⟩
  · cases same
    rfl
  · exact absurd (.inr ⟨count, ⟨world, expected, kind, candidates, recovery, length, member⟩,
      failed_of_later kept found dials split'
        ⟨world, expected, kind, candidates, recovery, length, by simp⟩⟩) unreturned
  · exact absurd (.inr ⟨count', ⟨world', expected', kind', candidates', recovery', length',
      member'⟩, failed_of_later kept found dials split
        ⟨world', expected', kind', candidates', recovery', length', by simp⟩⟩) unreturned'

/-- Of all dials with one key, one at most holds the gate. -/
theorem gated_exclusive (kept : self.fullConduct.Kept pool)
    (gates : GatesKept self pool.history pool.world) {index' : Nat}
    {job' : Job Call.Reply Outcome World Operation} (found : pool.jobs[index]? = some job)
    (found' : pool.jobs[index']? = some job') (gated : Gated self key job.past)
    (gated' : Gated self key job'.past) : index = index' := by
  have held : ∀ {index job}, pool.jobs[index]? = some job → Gated self key job.past →
      ∃ gate, pool.world.sessionDials key = some gate ∧
        self.gates.owns (System.momentsOf pool.history index) gate = true := by
    intro index job found gated
    obtain ⟨world, gate, given, owned⟩ := gated
    rw [kept.recorded.past index job found] at given owned
    obtain ⟨entry, member, -, same⟩ := System.mem_momentsOf.mp given
    exact ⟨gate, gates.named entry member world key gate same, owned⟩
  obtain ⟨gate, named, owned⟩ := held found gated
  obtain ⟨gate', named', owned'⟩ := held found' gated'
  obtain rfl : gate = gate' := Option.some.inj (named.symm.trans named')
  exact gates.exclusive.unique index index' gate owned owned'

/-! ## Dials that find a session -/

variable {session : Session}

/-- A dial that has found a session is about to leave: it has returned it, or only gives its gate
back. -/
theorem leaves_of_found (kept : self.fullConduct.Kept pool) (found : pool.jobs[index]? = some job)
    (dials : job.operation.dialKey = some key)
    (looked : ⟨world, .active key.1 key.2, some session⟩ ∈ job.past) :
    (job.rest = .done (.session (.ok session)) ∧ ∀ race count, ¬ Starts job.past race count) ∨
      ∃ gate next, job.rest = .await (.unlockGate gate) next ∧
        ∀ moment ∈ job.past, ∀ gate, moment.call ≠ .unlockGate gate := by
  cases rest : job.rest with
  | done value =>
    have achieved := (kept.achieved (System.outcome_of_done found rest)).2
    obtain ⟨result, rfl, finds⟩ := achieved key dials
    rw [← kept.recorded.past index job found] at finds
    obtain ⟨rfl, unstarted⟩ := finds.2 world session looked
    exact Or.inl ⟨rfl, unstarted⟩
  | await request next =>
    have guaranteed := (kept.next found rest).2
    rw [← kept.recorded.past index job found] at guaranteed
    obtain ⟨⟨gate, rfl⟩, unreleased⟩ := (guaranteed.1 key dials).2.leaves world session looked
    exact Or.inr ⟨gate, next, rfl, unreleased⟩

/-- A dial that has found a session returns it at its next turn. -/
theorem returns_of_found (kept : self.fullConduct.Kept pool) (found : pool.jobs[index]? = some job)
    (dials : job.operation.dialKey = some key)
    (looked : ⟨world, .active key.1 key.2, some session⟩ ∈ job.past)
    (proposal : (call : Call) → call.Reply) :
    ∃ left, (self.system.step pool (.resume index proposal)).jobs[index]? = some left ∧
      left.operation = job.operation ∧ left.rest = .done (.session (.ok session)) ∧
        ∀ race count, ¬ Starts left.past race count := by
  rcases leaves_of_found kept found dials looked with ⟨done, unstarted⟩ | ⟨gate, next, rest, -⟩
  · exact ⟨job, self.system.jobs_run_of_done found done [.resume index proposal], rfl, done,
      unstarted⟩
  · have stepped := self.system.jobs_resume proposal found rest rfl
    refine ⟨_, stepped, rfl, ?_⟩
    have member : ⟨world, .active key.1 key.2, some session⟩ ∈
        job.past ++ [⟨pool.world, .unlockGate gate, ()⟩] := List.mem_append_left _ looked
    rcases leaves_of_found (Conduct.kept_step kept) stepped dials member with done | again
    · exact done
    · obtain ⟨other, rest, -, unreleased⟩ := again
      exact absurd rfl (unreleased ⟨pool.world, .unlockGate gate, ()⟩ (by simp) gate)

/-- The last call of a dial has obtained its gate. -/
def entered (past : List Moment) : Bool :=
  match past.getLast? with
  | some ⟨_, .lockGate _, _⟩ => true
  | _ => false

theorem entered_split {past : List Moment} (just : entered past = true) :
    ∃ before world gate, past = before ++ [⟨world, .lockGate gate, ()⟩] := by
  unfold entered at just
  split at just
  · rename_i world gate reply last
    obtain ⟨before, rfl⟩ := List.getLast?_eq_some_iff.mp last
    exact ⟨before, world, gate, rfl⟩
  · cases just

/-- A dial that has just obtained a gate holds that of its key, and next looks for a session. -/
theorem looks_of_entered (kept : self.fullConduct.Kept pool) (found : pool.jobs[index]? = some job)
    (dials : job.operation.dialKey = some key) (just : entered job.past = true) :
    Gated self key job.past ∧ ∃ next, job.rest = .await (.active key.1 key.2) next := by
  obtain ⟨before, world, gate, split⟩ := entered_split just
  have last : ⟨world, .lockGate gate, ()⟩ ∈ job.past.getLast? := by simp [split]
  refine ⟨?_, ?_⟩
  · obtain ⟨given, named⟩ := dial_moment kept found dials split
    refine ⟨given, gate, ?_, ?_⟩
    · rw [split]
      exact List.mem_append_left _ named
    · rw [split, Locking.owns_concat]
      exact if_pos rfl
  · cases rest : job.rest with
    | done value =>
      obtain ⟨result, -, finds⟩ := (kept.achieved (System.outcome_of_done found rest)).2 key dials
      rw [← kept.recorded.past index job found] at finds
      exact absurd rfl (finds.1 _ last gate)
    | await request next =>
      have guaranteed := (kept.next found rest).2
      rw [← kept.recorded.past index job found] at guaranteed
      obtain rfl := (guaranteed.1 key dials).2.looks _ last gate rfl
      exact ⟨next, rfl⟩

/-- The session a dial finds is the registered one, if that is open and referenced. -/
theorem active_registered (self : Runtime) {entry : ActiveSession}
    (registered : world.registry.sessions key = some entry)
    (alive : world.registry.live entry = some session)
    (proposal : Call.Reply (.active key.1 key.2)) :
    self.system.handle world (.active key.1 key.2) proposal = some (some session, world) := by
  simp only [system, handle, Registry.active, registered, Option.bind_some, alive]

/-- A dial that has found a session returns it, once it had another turn. -/
theorem returns_run_of_found (database : Database) (inputs : Inputs)
    (found : (self.after database inputs).jobs[index]? = some job)
    (dials : job.operation.dialKey = some key)
    (looked : ⟨world, .active key.1 key.2, some session⟩ ∈ job.past) (more rest : Inputs)
    (proposal : (call : Call) → call.Reply) :
    ∃ left, (self.after database (inputs ++ more ++ .resume index proposal :: rest)).jobs[index]? =
        some left ∧ left.operation = job.operation ∧ left.rest = .done (.session (.ok session)) ∧
          ∀ race count, ¬ Starts left.past race count := by
  obtain ⟨later, present, same, grown⟩ := self.system.jobs_run found more
  rw [← Run.exec_append] at present
  obtain ⟨left, returned, same', done, unstarted⟩ :=
    returns_of_found (gatesKept_run self database (inputs ++ more)).1 present
      (by rw [same]; exact dials) (grown looked) proposal
  refine ⟨left, ?_, same'.trans same, done, unstarted⟩
  rw [after, Run.exec_append]
  exact self.system.jobs_run_of_done returned done rest

/-- Of all dials with one key, in any interleaving, one at most holds the gate and one race at most
is in progress at any time, and a dial gives its gate back only when it is done with its races. A
dial that has obtained its gate holds that of its key and returns the session that is registered,
open and referenced when it next runs, without a race. -/
theorem concurrent_dials_share_session (self : Runtime) (database : Database)
    (inputs : Inputs) (key : SessionKey) :
    (∀ (index index' : Nat) (job job' : Job Call.Reply Outcome World Operation),
      (self.after database inputs).jobs[index]? = some job →
      (self.after database inputs).jobs[index']? = some job' →
      job.operation.dialKey = some key → job'.operation.dialKey = some key →
      (Gated self key job.past → Gated self key job'.past → index = index') ∧
      (∀ race race', InProgress job.past race → InProgress job'.past race' →
        index = index' ∧ race = race') ∧
      ∀ before world gate rest, job.past = before ++ ⟨world, .unlockGate gate, ()⟩ :: rest →
        ∀ race count, Starts before race count → RaceReturned before race) ∧
    ∀ (index : Nat) (job : Job Call.Reply Outcome World Operation),
      (self.after database inputs).jobs[index]? = some job →
      job.operation.dialKey = some key → entered job.past = true →
        Gated self key job.past ∧ ∀ entry session,
          (self.after database inputs).world.registry.sessions key = some entry →
          (self.after database inputs).world.registry.live entry = some session →
            ∀ proposal again more rest, ∃ left,
              (self.after database (inputs ++ [.resume index proposal] ++ more ++
                .resume index again :: rest)).jobs[index]? = some left ∧
              left.rest = .done (.session (.ok session)) ∧
              ∀ race count, ¬ Starts left.past race count := by
  obtain ⟨kept, gates⟩ := gatesKept_run self database inputs
  refine ⟨fun index index' job job' found found' dials dials' => ⟨?_, ?_, ?_⟩,
    fun index job found dials just => ?_⟩
  · exact gated_exclusive kept gates found found'
  · intro race race' inProgress inProgress'
    obtain rfl := gated_exclusive kept gates found found'
      (gated_of_inProgress kept found dials inProgress)
      (gated_of_inProgress kept found' dials' inProgress')
    obtain rfl : job = job' := Option.some.inj (found.symm.trans found')
    exact ⟨rfl, inProgress_unique kept found dials inProgress inProgress'⟩
  · intro before world gate rest split race count starts
    exact returned_of_unlocked kept found dials split starts
  · obtain ⟨gated, next, awaiting⟩ := looks_of_entered kept found dials just
    refine ⟨gated, fun entry session registered alive proposal again more rest => ?_⟩
    have looked := self.system.jobs_resume proposal found awaiting
      (self.active_registered registered alive _)
    rw [after, ← Run.exec_concat self.system.step] at looked
    have member : ⟨(self.after database inputs).world, .active key.1 key.2, some session⟩ ∈
        job.past ++ [⟨(self.after database inputs).world, .active key.1 key.2, some session⟩] := by
      simp
    obtain ⟨left, present, -, returned⟩ := returns_run_of_found database _ looked
      (show job.operation.dialKey = some key from dials) member more rest again
    exact ⟨left, present, returned⟩

/-- Alice dials Bob for a pairing session, the candidate wins and its session is registered; then a
second dial obtains the gate. -/
def sharedRun : Inputs :=
  List.flatten [
    [.start (.connect bobAdvertisement .pairing), .start (.candidate 0 0),
      .start (.connect bobAdvertisement .pairing)],
    resumes 0 (fun _ => Call.smooth) 0 4,
    resumes 1 (answering .pairing) 0 38,
    resumes 0 (fun _ => Call.smooth) 4 8,
    resumes 2 (fun _ => Call.smooth) 0 2]

/-- The pool after it. -/
def sharedPool : Jobs :=
  (accepting .pairing).after .empty sharedRun

/-- The session the first dial has returned. -/
def sharedSession : Option Session :=
  match System.outcome sharedPool 0 with
  | some (_, .session (.ok session)) => some session
  | _ => none

/-- The registered session, if it is open and referenced. -/
def registeredSession (pool : Jobs) (key : SessionKey) :
    Option Session :=
  (pool.world.registry.sessions key).bind pool.world.registry.live

/-- Bob's session is registered, open and referenced when the second dial obtains the gate. -/
theorem sharedPool_entered :
    sharedSession.isSome = true ∧
    registeredSession sharedPool (⟨"bob"⟩, .pairing) = sharedSession ∧
    sharedPool.jobs[2]?.map (fun job => (job.operation.dialKey, entered job.past)) =
      some (some (⟨"bob"⟩, .pairing), true) := by
  decide +kernel

/-- In the shared run the second dial returns the session of the first. -/
theorem concurrent_dials_share_session_bob :
    ∃ session, sharedSession = some session ∧ ∃ left,
      ((accepting .pairing).after .empty (sharedRun ++ [.resume 2 Call.smooth] ++ [] ++
        [.resume 2 Call.smooth])).jobs[2]? = some left ∧
      left.rest = .done (.session (.ok session)) ∧ ∀ race count, ¬ Starts left.past race count := by
  obtain ⟨returned, same, second⟩ := sharedPool_entered
  obtain ⟨session, shared⟩ := Option.isSome_iff_exists.mp returned
  rw [shared, registeredSession] at same
  obtain ⟨entry, registered, alive⟩ := Option.bind_eq_some_iff.mp same
  obtain ⟨job, found, known⟩ := Option.map_eq_some_iff.mp second
  obtain ⟨dials, just⟩ := Prod.mk.inj known
  rw [sharedPool] at registered alive found
  obtain ⟨-, dialsShare⟩ :=
    concurrent_dials_share_session (accepting .pairing) .empty sharedRun (⟨"bob"⟩, .pairing)
  exact ⟨session, shared, (dialsShare 2 job found dials just).2 entry session registered alive
    Call.smooth Call.smooth [] []⟩

/-- If it closes before the dial runs again, the dial finds nothing and starts another race. -/
theorem dial_races_after_close :
    (sharedSession.isSome = true ∧
      registeredSession sharedPool (⟨"bob"⟩, .pairing) = sharedSession ∧
      sharedPool.jobs[2]?.map (fun job => (job.operation.dialKey, entered job.past)) =
        some (some (⟨"bob"⟩, .pairing), true)) ∧
    ((accepting .pairing).after .empty (sharedRun ++ [.disturb (.closed 0 .timedOut)] ++
      resumes 2 (fun _ => Call.smooth) 2 2)).jobs[2]?.map (fun job =>
        job.past.any fun moment => moment.call matches .startRace _ _ _ _) = some true :=
  ⟨sharedPool_entered, by decide +kernel⟩

end Runtime

end ArcRelay
