import ArcRelay.Lib.Conduct
import ArcRelay.Scanning
import ArcRelay.Verif.Scan

/-!
# Scans are bounded and apart

Whatever the probes find and however scans, cancellations and the clock interleave: a
scan never has more than thirty-two probes under way and waits for all of them before
it reports what they found; a scan that has seen that it is cancelled starts no more
probes; and two scans start at least a minute apart.
-/

namespace ArcRelay.Scan

open System (momentsOf)

/-- A call of a scan with its reply. -/
abbrev Moment := Program.Moment World Call.Reply

/-! ## What a scan guarantees of its calls -/

/-- The call joins a task. -/
def Call.joins : Call → Bool
  | .joinNext => true
  | _ => false

/-- How many tasks have been joined. -/
def joined (moments : List Moment) : Nat := moments.countP fun moment => moment.call.joins

/-- The device that a joined task has found. -/
def foundBy : Moment → Option DeviceId
  | ⟨_, .joinNext, some (.ok peer)⟩ => some peer.deviceId
  | _ => none

/-- The devices that were found, as often as they were. -/
def found (moments : List Moment) : List DeviceId := moments.filterMap foundBy

/-- The scan was let in: the last call has found no recent start. -/
def Admitted (past : List Moment) : Prop :=
  ∃ before world elapsed, past = before ++ [⟨world, .lastElapsed, elapsed⟩] ∧
    elapsed.any (· < scanCooldown) = false

/-- What a scan guarantees of a call. -/
def Proper (operation : Operation) (past : List Moment) : Call → Prop
  | .setStarted => Admitted past
  | .storeCancelled value => value = (operation == .cancel)
  | .spawnProbe _ _ _ => (probed past).length < joined past + scanConcurrency ∧
      ∀ moment ∈ past, Undisturbed moment
  | .joinNext => joined past < (probed past).length
  | _ => True

/-- What a scan reports is what its calls have come to. -/
structure Accounts (moments : List Moment) (report : LanScanReport) : Prop where
  joined : joined moments = (probed moments).length
  attempted : report.attemptedEndpoints = (probed moments).length
  discovered : report.discoveredDevices = (found moments).toFinset.card

/-- What the variables of a scan say of its calls. -/
structure Tracks (past : List Moment) (progress : Progress) : Prop where
  tasks : progress.tasks + Scan.joined past = (probed past).length
  attempted : progress.attempted = (probed past).length
  nodup : progress.discovered.Nodup
  discovered : progress.discovered.toFinset = (found past).toFinset

/-- The contract of an operation. -/
def scanning (operation : Operation) : Program.Contract World Call.Reply :=
  ⟨Proper operation, fun _ _ => True⟩

variable {past : List Moment} {operation : Operation}

variable {progress : Progress}

theorem Tracks.quiet (tracks : Tracks past progress) {moment : Moment}
    (unprobed : moment.call.probe? = none) (unjoined : moment.call.joins = false) :
    Tracks (past ++ [moment]) progress := by
  have probes : probed (past ++ [moment]) = probed past := by
    simp [probed, unprobed]
  have joins : joined (past ++ [moment]) = joined past := by
    simp [joined, unjoined]
  have finds : found (past ++ [moment]) = found past := by
    have nothing : foundBy moment = none := by
      obtain ⟨world, call, reply⟩ := moment
      cases call <;> first | rfl | cases unjoined
    simp [found, nothing]
  exact ⟨by rw [probes, joins]; exact tracks.tasks, by rw [probes]; exact tracks.attempted,
    tracks.nodup, by rw [finds]; exact tracks.discovered⟩

/-- A task is joined. -/
theorem Tracks.join (tracks : Tracks past progress) (busy : 0 < progress.tasks) (world : World)
    (result : Option (Except NetworkError PeerAdvertisement)) :
    Tracks (past ++ [⟨world, .joinNext, result⟩]) (progress.join result) := by
  have probes : probed (past ++ [⟨world, .joinNext, result⟩]) = probed past := by
    simp [probed, Call.probe?]
  have joins : Scan.joined (past ++ [⟨world, .joinNext, result⟩]) = Scan.joined past + 1 := by
    simp [Scan.joined, Call.joins]
  have balance := tracks.tasks
  unfold Progress.join
  split
  · rename_i peer
    have finds : found (past ++ [⟨world, .joinNext, some (.ok peer)⟩]) =
        found past ++ [peer.deviceId] := by
      simp [found, foundBy]
    refine ⟨?_, probes ▸ tracks.attempted, tracks.nodup.insert, ?_⟩
    · rw [probes, joins]
      simp only
      omega
    · ext id
      simp [finds, ← tracks.discovered]
  · rename_i failed
    have finds : found (past ++ [⟨world, .joinNext, result⟩]) = found past := by
      have nothing : foundBy ⟨world, .joinNext, result⟩ = none := by
        unfold foundBy
        split
        · rename_i same
          cases same
          exact absurd rfl (failed _)
        · rfl
      simp [found, nothing]
    refine ⟨?_, probes ▸ tracks.attempted, tracks.nodup, by rw [finds]; exact tracks.discovered⟩
    rw [probes, joins]
    simp only
    omega

/-- A probe is started. -/
theorem Tracks.spawn (tracks : Tracks past progress) (world : World) (endpoint : SocketAddr)
    (source : EndpointSource) (timeout : Nat) :
    Tracks (past ++ [⟨world, .spawnProbe endpoint source timeout, ()⟩])
      { progress with tasks := progress.tasks + 1, attempted := progress.attempted + 1 } := by
  have probes : probed (past ++ [⟨world, .spawnProbe endpoint source timeout, ()⟩]) =
      probed past ++ [endpoint] := by
    simp [probed, Call.probe?]
  have joins : Scan.joined (past ++ [⟨world, .spawnProbe endpoint source timeout, ()⟩]) =
      Scan.joined past := by
    simp [Scan.joined, Call.joins]
  have finds : found (past ++ [⟨world, .spawnProbe endpoint source timeout, ()⟩]) =
      found past := by
    simp [found, foundBy]
  refine ⟨?_, ?_, tracks.nodup, by rw [finds]; exact tracks.discovered⟩
  · rw [probes, joins, List.length_append, ← tracks.tasks]
    simp only [List.length_singleton]
    omega
  · rw [probes, List.length_append, ← tracks.attempted]
    rfl

/-- Joining tasks leaves fewer than the limit, by nothing but joining. -/
theorem tracks_joinWhile {limit : Nat} (positive : 0 < limit) {tasks : Nat}
    (same : progress.tasks = tasks) (tracks : Tracks past progress) :
    Program.Ensures (scanning operation)
      (fun now left => Tracks now left ∧ left.tasks < limit ∧
        ∃ more, now = past ++ more ∧ ∀ moment ∈ more, moment.call = .joinNext)
      past (joinWhile limit tasks progress) := by
  induction tasks generalizing past progress with
  | zero =>
    exact ⟨tracks, same ▸ positive, [], (List.append_nil _).symm,
      fun _ absent => absurd absent List.not_mem_nil⟩
  | succ tasks induction =>
    rw [joinWhile]
    split
    · refine ⟨?_, fun world result _ => ?_⟩
      · have balance := tracks.tasks
        change Scan.joined past < (probed past).length
        omega
      · have left : (progress.join result).tasks = tasks := by
          unfold Progress.join
          split <;> simp [same]
        refine (induction left (tracks.join (by omega) world result)).mono fun now left known => ?_
        obtain ⟨kept, few, more, split, joins⟩ := known
        refine ⟨kept, few, ⟨world, .joinNext, result⟩ :: more, ?_, fun moment member => ?_⟩
        · rw [split, List.append_assoc, List.singleton_append]
        · rcases List.mem_cons.mp member with rfl | later
          · rfl
          · exact joins moment later
    · rename_i few
      exact ⟨tracks, by omega, [], (List.append_nil _).symm,
        fun _ absent => absurd absent List.not_mem_nil⟩

/-- The loop over the endpoints keeps count. -/
theorem tracks_launch (targets : List SocketAddr) (tracks : Tracks past progress)
    (undisturbed : ∀ moment ∈ past, Undisturbed moment) :
    Program.Ensures (scanning operation) (fun now launched => Tracks now launched)
      past (launch targets progress) := by
  induction targets generalizing past progress with
  | nil => exact tracks
  | cons endpoint targets induction =>
    refine ⟨trivial, fun world cancelled _ => ?_⟩
    have checked : Tracks (past ++ [⟨world, .loadCancelled, cancelled⟩]) progress :=
      tracks.quiet rfl rfl
    cases cancelled with
    | true => exact checked
    | false =>
      change Program.Ensures _ _ _ (joinWhile scanConcurrency progress.tasks progress >>= _)
      refine Program.ensures_bind (tracks_joinWhile (by decide) rfl checked)
        fun joinedAt left known => ?_
      obtain ⟨kept, few, more, split, joins⟩ := known
      have calm : ∀ moment ∈ joinedAt, Undisturbed moment := by
        intro moment member
        rw [split, List.append_assoc] at member
        rcases List.mem_append.mp member with earlier | later
        · exact undisturbed moment earlier
        · rcases List.mem_cons.mp later with rfl | last
          · rfl
          · have call := joins moment last
            obtain ⟨world, call, reply⟩ := moment
            subst call
            trivial
      refine ⟨⟨?_, calm⟩, fun spawnWorld _ _ => ?_⟩
      · have balance := kept.tasks
        change (probed joinedAt).length < Scan.joined joinedAt + scanConcurrency
        omega
      · refine ⟨trivial, fun sleepWorld _ _ => ?_⟩
        refine induction ((kept.spawn spawnWorld endpoint .scan scanEndpointTimeout).quiet rfl rfl)
          ?_
        intro moment member
        rcases List.mem_concat_iff.mp member with earlier | rfl
        · rcases List.mem_concat_iff.mp earlier with before | rfl
          · exact calm moment before
          · trivial
        · trivial

theorem accounts_sweep (interfaces : List Interface) (tracks : Tracks past {})
    (undisturbed : ∀ moment ∈ past, Undisturbed moment) :
    Program.Ensures (scanning operation) (fun now report => Accounts now report) past
      (sweep interfaces) := by
  refine Program.ensures_bind (tracks_launch (endpoints interfaces) tracks undisturbed)
    fun launchedAt launched known => ?_
  refine Program.ensures_bind (tracks_joinWhile Nat.one_pos rfl known) fun now left known => ?_
  obtain ⟨kept, few, -⟩ := known
  have balance := kept.tasks
  refine ⟨by omega, kept.attempted, ?_⟩
  change left.discovered.length = _
  rw [← kept.discovered, List.toFinset_card_of_nodup kept.nodup]

/-- A scan on its own. -/
theorem accounts_scanLocalIpv4 :
    Program.Ensures (scanning .scan)
      (fun now result => ∀ report, result = .ok report → Accounts now report) []
      scanLocalIpv4.run := by
  refine ⟨trivial, fun world elapsed _ => ?_⟩
  cases recent : elapsed.any (· < scanCooldown) with
  | true =>
    change Program.Ensures _ _ _ (if elapsed.any (· < scanCooldown) then _ else _)
    rw [if_pos recent]
    rintro report ⟨⟩
    exact ⟨rfl, rfl, rfl⟩
  | false =>
    change Program.Ensures _ _ _ (if elapsed.any (· < scanCooldown) then _ else _)
    rw [if_neg (by rw [recent]; exact Bool.noConfusion)]
    refine ⟨⟨[], world, elapsed, rfl, recent⟩, fun _ _ _ => ⟨rfl, fun _ _ _ =>
      ⟨trivial, fun _ listed _ => ?_⟩⟩⟩
    cases listed with
    | error error =>
      intro report same
      cases same
    | ok interfaces =>
      change Program.Ensures _ _ _ (Except.ok <$> sweep interfaces)
      refine Program.ensures_map
        ((accounts_sweep interfaces ⟨rfl, rfl, List.nodup_nil, rfl⟩ ?_).mono
        fun now report known other same => ?_)
      · intro moment member
        simp only [List.nil_append, List.cons_append, List.mem_cons, List.not_mem_nil,
          or_false] at member
        rcases member with rfl | rfl | rfl | rfl
        · exact recent
        all_goals trivial
      · cases same
        exact known

/-- How scans and cancellations conduct themselves. -/
def conduct : Conduct system where
  guarantee := Proper
  post _ past outcome := ∀ report, outcome = some (.ok report) → Accounts past report
  programs := by
    intro operation
    cases operation with
    | scan =>
      refine Program.ensures_map (accounts_scanLocalIpv4.mono fun now result known report same =>
        ?_)
      exact known report (Option.some.inj same)
    | cancel =>
      refine ⟨rfl, fun _ _ _ report same => ?_⟩
      cases same

/-! ## What a scan has under way -/

/-- Calls that are all proper. -/
def AllProper (moments : List Moment) : Prop :=
  ∀ before moment later, moments = before ++ moment :: later →
    ∃ operation, Proper operation before moment.call

theorem AllProper.earlier {moments : List Moment} {last : Moment}
    (proper : AllProper (moments ++ [last])) : AllProper moments := by
  intro before moment later split
  refine proper before moment (later ++ [last]) ?_
  rw [split, List.append_assoc, List.cons_append]

/-- A scan has started at least as many probes as it has joined, and at most thirty-two more. -/
theorem AllProper.bounded {moments : List Moment} (proper : AllProper moments) :
    joined moments ≤ (probed moments).length ∧
      (probed moments).length ≤ joined moments + scanConcurrency := by
  induction moments using List.reverseRecOn with
  | nil => exact ⟨le_refl _, Nat.zero_le _⟩
  | append_singleton moments last bounded =>
    obtain ⟨lower, upper⟩ := bounded proper.earlier
    obtain ⟨operation, now⟩ := proper moments last [] rfl
    have probes : (probed (moments ++ [last])).length =
        (probed moments).length + (probed [last]).length := by
      rw [probed, List.filterMap_append, List.length_append, ← probed, ← probed]
    have joins : joined (moments ++ [last]) = joined moments + joined [last] := List.countP_append
    obtain ⟨world, call, reply⟩ := last
    cases call
    case spawnProbe endpoint source timeout =>
      have room : (probed moments).length < joined moments + scanConcurrency := now.1
      have one :
          (probed [(⟨world, .spawnProbe endpoint source timeout, reply⟩ : Moment)]).length = 1 :=
        rfl
      have other : joined [⟨world, .spawnProbe endpoint source timeout, reply⟩] = 0 := rfl
      omega
    case joinNext =>
      have busy : joined moments < (probed moments).length := now
      have other : (probed [(⟨world, .joinNext, reply⟩ : Moment)]).length = 0 := rfl
      have one : joined [⟨world, .joinNext, reply⟩] = 1 := rfl
      omega
    all_goals
      rw [probes, joins]
      exact ⟨lower, upper⟩

theorem kept_run (clock : Nat) (inputs : List (Pool.Input Call.Reply Operation Nat)) :
    conduct.Kept (after clock inputs) :=
  (conduct.invariant_always (fun _ _ => True) trivial (fun _ _ _ _ => trivial)
    (fun _ _ => trivial) inputs).1

theorem allProper_run (clock : Nat) (inputs : List (Pool.Input Call.Reply Operation Nat))
    (index : Nat) : AllProper (momentsOf (after clock inputs).history index) := by
  intro before moment later split
  obtain ⟨entry, -, -, -, proper⟩ := (kept_run clock inputs).entries.moment split
  exact ⟨entry.operation, proper⟩

/-- Every scan is bounded. However scans and cancellations interleave and whatever the probes find,
a scan has at any time at most thirty-two probes under way, starts none after it has been refused or
has seen that it is cancelled, and does not return before all of them have ended; its report then
counts the probes and the different devices they have found. -/
theorem scans_bounded (clock : Nat) (inputs : List (Pool.Input Call.Reply Operation Nat))
    (index : Nat) :
    let moments := momentsOf (after clock inputs).history index
    (joined moments ≤ (probed moments).length ∧
      (probed moments).length ≤ joined moments + scanConcurrency) ∧
    (∀ before moment later, moments = before ++ moment :: later →
      (∃ earlier ∈ before, ¬ Undisturbed earlier) → moment.call.probe? = none) ∧
    ∀ report, System.outcome (after clock inputs) index = some (.scan, some (.ok report)) →
      Accounts moments report := by
  intro moments
  have proper := allProper_run clock inputs index
  refine ⟨proper.bounded, fun before moment later split disturbed => ?_, fun report returned => ?_⟩
  · obtain ⟨operation, now⟩ := proper before moment later split
    obtain ⟨world, call, reply⟩ := moment
    cases call
    case spawnProbe endpoint source timeout =>
      obtain ⟨earlier, member, disturbs⟩ := disturbed
      exact absurd (now.2 earlier member) disturbs
    all_goals rfl
  · exact (kept_run clock inputs).achieved returned report rfl

/-! ## Starts are apart -/

/-- The history of all scans and cancellations. -/
abbrev History := List (Entry Call.Reply World Operation)

/-- `SCAN_COOLDOWN` in nanoseconds. -/
def cooldown : Nat := scanCooldown * 1000000

/-- When a scan notes its start. -/
def startedAt (entry : Entry Call.Reply World Operation) : Option Nat :=
  match entry.moment.call with
  | .setStarted => some entry.moment.world.clock
  | _ => none

/-- The starts of scans, in order. -/
def starts (history : History) : List Nat := history.filterMap startedAt

/-- The starts so far, and what the world knows of them. -/
structure Spaced (history : History) (world : World) : Prop where
  apart : (starts history).Pairwise fun earlier later => earlier + cooldown ≤ later
  known : ∀ start ∈ starts history, ∃ last, world.lastStarted = some last ∧ start ≤ last
  past : ∀ last, world.lastStarted = some last → last ≤ world.clock
  waited : world.locked = true → ∀ last, world.lastStarted = some last →
    last + cooldown ≤ world.clock
  holds : ∀ index, Admitted (momentsOf history index) → world.locked = true
  unique : ∀ first second, Admitted (momentsOf history first) →
    Admitted (momentsOf history second) → first = second

theorem admitted_concat {past : List Moment} {moment : Moment} :
    Admitted (past ++ [moment]) ↔ ∃ world elapsed, moment = ⟨world, .lastElapsed, elapsed⟩ ∧
      elapsed.any (· < scanCooldown) = false := by
  constructor
  · rintro ⟨before, world, elapsed, split, admitted⟩
    obtain ⟨-, rfl⟩ := List.concat_inj.mp (by simpa using split)
    exact ⟨world, elapsed, rfl, admitted⟩
  · rintro ⟨world, elapsed, rfl, admitted⟩
    exact ⟨past, world, elapsed, rfl, admitted⟩

/-- After a call the job that made it is let in by this call, or another one was before. -/
theorem admitted_cases {history : History} {entry : Entry Call.Reply World Operation} {index : Nat}
    (admitted : Admitted (momentsOf (history ++ [entry]) index)) :
    (index = entry.index ∧ ∃ world elapsed, entry.moment = ⟨world, .lastElapsed, elapsed⟩ ∧
      elapsed.any (· < scanCooldown) = false) ∨
    (index ≠ entry.index ∧ Admitted (momentsOf history index)) := by
  rw [System.momentsOf_concat] at admitted
  split at admitted
  · rename_i own
    exact .inl ⟨own.symm, admitted_concat.mp admitted⟩
  · rename_i another
    rw [List.append_nil] at admitted
    exact .inr ⟨fun own => another own.symm, admitted⟩

/-- A call that neither asks for the last start nor notes one. -/
theorem Spaced.other {history : History} {world after : World}
    {entry : Entry Call.Reply World Operation} (spaced : Spaced history world)
    (clock : after.clock = world.clock) (started : after.lastStarted = world.lastStarted)
    (locked : after.locked = world.locked) (unstarted : startedAt entry = none)
    (unasked : entry.moment.call ≠ .lastElapsed) : Spaced (history ++ [entry]) after := by
  have same : starts (history ++ [entry]) = starts history := by
    simp [starts, unstarted]
  have before {index : Nat} (admitted : Admitted (momentsOf (history ++ [entry]) index)) :
      Admitted (momentsOf history index) := by
    rcases admitted_cases admitted with ⟨-, world, elapsed, made, -⟩ | ⟨-, earlier⟩
    · exact absurd (congrArg Program.Moment.call made) unasked
    · exact earlier
  refine ⟨same ▸ spaced.apart, ?_, ?_, ?_, fun index admitted => ?_, fun first second one other =>
    ?_⟩
  · rw [same, started]
    exact spaced.known
  · rw [started, clock]
    exact spaced.past
  · rw [started, clock, locked]
    exact spaced.waited
  · rw [locked]
    exact spaced.holds index (before admitted)
  · exact spaced.unique first second (before one) (before other)

theorem cooldown_le {clock last : Nat}
    (waited : ¬ (clock - last) / 1000000 < scanCooldown) : last + cooldown ≤ clock := by
  unfold cooldown scanCooldown at *
  omega

/-- One call keeps the starts apart. -/
theorem spaced_call {history : History} {world after : World} {index : Nat} {operation : Operation}
    {call : Call} {proposal reply : Call.Reply call} (spaced : Spaced history world)
    (proper : Proper operation (momentsOf history index) call)
    (answered : handle world call proposal = some (reply, after)) :
    Spaced (history ++ [⟨index, operation, ⟨world, call, reply⟩⟩]) after := by
  cases call
  case lastElapsed =>
    simp only [handle, Option.ite_none_left_eq_some, Option.some.injEq, Prod.mk.injEq] at answered
    obtain ⟨free, rfl, rfl⟩ := answered
    have same : starts (history ++ [⟨index, operation, ⟨world, .lastElapsed, world.elapsed⟩⟩]) =
        starts history := by
      simp [starts, startedAt]
    -- the guard was free, so no scan had been let in
    have own {other : Nat} (admitted : Admitted (momentsOf
        (history ++ [⟨index, operation, ⟨world, .lastElapsed, world.elapsed⟩⟩]) other)) :
        other = index ∧ world.elapsed.any (· < scanCooldown) = false := by
      rcases admitted_cases admitted with ⟨mine, seenAt, elapsed, made, long⟩ | ⟨-, earlier⟩
      · cases made
        exact ⟨mine, long⟩
      · exact absurd (spaced.holds other earlier) free
    refine ⟨same ▸ spaced.apart, same ▸ spaced.known, spaced.past, fun locked last noted => ?_,
      fun other admitted => ?_, fun first second one other => (own one).1.trans (own other).1.symm⟩
    · have long : world.elapsed.any (· < scanCooldown) = false := by simpa using locked
      have noted : world.lastStarted = some last := noted
      simp only [World.elapsed, noted, Option.map_some, Option.any_some, decide_eq_false_iff_not]
        at long
      exact cooldown_le long
    · simp [(own admitted).2]
  case setStarted =>
    cases answered
    have locked := spaced.holds index proper
    have grown : starts (history ++ [⟨index, operation, ⟨world, .setStarted, ()⟩⟩]) =
        starts history ++ [world.clock] := by
      simp [starts, startedAt]
    refine ⟨?_, fun start member => ⟨world.clock, rfl, ?_⟩, ?_, fun locked => ?_,
      fun other admitted => ?_, fun first second one other => ?_⟩
    · rw [grown, List.pairwise_append]
      refine ⟨spaced.apart, List.pairwise_singleton _ _, fun earlier member now here => ?_⟩
      obtain rfl := List.mem_singleton.mp here
      obtain ⟨last, noted, before⟩ := spaced.known earlier member
      exact (Nat.add_le_add_right before _).trans (spaced.waited locked last noted)
    · rw [grown] at member
      rcases List.mem_concat_iff.mp member with earlier | now
      · obtain ⟨last, noted, before⟩ := spaced.known start earlier
        exact before.trans (spaced.past last noted)
      · exact now.le
    · rintro last ⟨⟩
      exact le_refl _
    · cases locked
    · rcases admitted_cases admitted with ⟨-, _, _, made, -⟩ | ⟨another, earlier⟩
      · cases made
      · exact absurd (spaced.unique other index earlier proper) another
    · rcases admitted_cases one with ⟨-, _, _, made, -⟩ | ⟨another, earlier⟩
      · cases made
      · exact absurd (spaced.unique first index earlier proper) another
  all_goals
    cases answered
    exact spaced.other rfl rfl rfl rfl (fun same => by cases same)

/-- Scans start apart. However calls of `scan_local_ipv4` and `cancel_lan_scan` interleave, two
scans that are not turned away start at least a minute apart. -/
theorem scans_apart (clock : Nat) (inputs : List (Pool.Input Call.Reply Operation Nat)) :
    (starts (after clock inputs).history).Pairwise fun earlier later =>
      earlier + cooldown ≤ later := by
  have outside (index : Nat) : ¬ Admitted (momentsOf ([] : History) index) := by
    rintro ⟨before, _, _, split, -⟩
    exact absurd split.symm (List.append_ne_nil_of_right_ne_nil _ (List.cons_ne_nil _ _))
  have fresh : Spaced [] (.bound clock) := by
    refine ⟨List.Pairwise.nil, fun _ absent => absurd absent List.not_mem_nil, fun _ noted => ?_,
      fun locked => ?_, fun index admitted => absurd admitted (outside index),
      fun first _ admitted => absurd admitted (outside first)⟩
    · cases noted
    · cases locked
  have kept := conduct.invariant_always Spaced fresh
    (fun _ spaced proper answered => spaced_call spaced proper answered)
    (fun nanoseconds spaced => ?_) inputs
  · exact kept.2.apart
  · exact ⟨spaced.apart, spaced.known,
      fun last noted => (spaced.past last noted).trans (Nat.le_add_right _ _),
      fun locked last noted => (spaced.waited locked last noted).trans (Nat.le_add_right _ _),
      spaced.holds, spaced.unique⟩

end ArcRelay.Scan
