import ArcRelay.Verif.Races

/-!
# One race has one winner

A candidate sends nothing but its hello and its signature before it passes the selection,
and one candidate at most is past the selection and has not failed. So one at most wins, and
none confirms a session after the winner did. A candidate that fails closes its connection
before it ends, and a race returns only when all of its candidates have ended.
-/

namespace ArcRelay

open Async
open System (momentsOf mem_momentsOf)

namespace Runtime

variable {self : Runtime}
variable {history : History} {world : World} {job : Nat}

/-! ## Winners and losers -/

theorem unreported_of_candidateCall {race index : Nat} {past : List Moment} {made : Call}
    (allowed : CandidateCall self race index past made) : Unreported past := by
  cases made
  case claim place number =>
    obtain rfl : past = [] := allowed
    exact fun moment absent => absurd absent List.not_mem_nil
  all_goals exact allowed.1

variable {later before : History} {result : CandidateResult} {entry : Record}

/-- The calls of a candidate were made before it ended. -/
theorem mem_before_report (guaranteed : self.fullConduct.Guaranteed history) {report : Record}
    {race index : Nat} (split : history = before ++ report :: later)
    (reported : report.moment.call = .report race index result) (member : entry ∈ history)
    (task : entry.operation = .candidate race index) (own : entry.index = report.index) :
    entry ∈ before ∨ entry = report := by
  rw [split] at member
  rcases List.mem_append.mp member with earlier | rest
  · exact .inl earlier
  · rcases List.mem_cons.mp rest with same | after
    · exact .inr same
    · obtain ⟨middle, last, rfl⟩ := List.append_of_mem after
      have again : history = (before ++ report :: middle) ++ entry :: last := by
        rw [split, List.append_assoc, List.cons_append]
      have silent := unreported_of_candidateCall (candidate_entry guaranteed again task)
      refine absurd reported (silent report.moment ?_ race index result)
      exact mem_momentsOf.mpr ⟨report, by simp, own.symm, rfl⟩

variable {state : Race}

/-- A candidate ends once. -/
theorem report_unique (guaranteed : self.fullConduct.Guaranteed history) {race index : Nat}
    (claims : Claims history race state) {first second : Record} {other : CandidateResult}
    (member : first ∈ history) (present : second ∈ history)
    (reported : first.moment.call = .report race index result)
    (again : second.moment.call = .report race index other) : second = first := by
  obtain ⟨task, claim, started, own, claimed⟩ := claimed_of_report guaranteed present again
  have same := reporter_of_claim guaranteed claims member reported started claimed
  obtain ⟨before, later, split⟩ := List.append_of_mem member
  rcases mem_before_report guaranteed split reported present task (own.symm.trans same.symm) with
    earlier | now
  · obtain ⟨taskFirst, -⟩ := claimed_of_report guaranteed member reported
    have silent := unreported_of_candidateCall (candidate_entry guaranteed split taskFirst)
    refine absurd again (silent second.moment ?_ race index other)
    exact mem_momentsOf.mpr ⟨second, earlier, own.symm.trans same.symm, rfl⟩
  · exact now

/-- A candidate that has won is ahead. -/
theorem ahead_of_won (guaranteed : self.fullConduct.Guaranteed history) {race index : Nat}
    (claims : Claims history race state) (won : Ended history race index true) :
    Ahead history race index := by
  obtain ⟨entry, member, result, reported, succeeded⟩ := won
  constructor
  · obtain ⟨before, later, split⟩ := List.append_of_mem member
    have allowed := candidate_entry guaranteed split
      (claimed_of_report guaranteed member reported).1
    rw [reported] at allowed
    obtain ⟨seenAt, inside⟩ := allowed.2.2.1 succeeded race index rfl
    obtain ⟨selection, present, -, made⟩ := mem_momentsOf.mp inside
    exact ⟨selection, split ▸ List.mem_append_left _ present, seenAt, made⟩
  · rintro ⟨failing, present, other, report, failed⟩
    have same := report_unique guaranteed claims member present reported report
    rw [same, reported] at report
    cases report
    exact absurd (succeeded.symm.trans failed) Bool.noConfusion

/-- A candidate that has failed has closed what it had opened. -/
theorem closed_of_failed (guaranteed : self.fullConduct.Guaranteed history) {race index : Nat}
    (claims : Claims history race state) (lost : Ended history race index false)
    (member : entry ∈ history) (task : entry.operation = .candidate race index) {seenAt : World}
    {address : SocketAddr} {recovery : Bool} {connection : Connection}
    (opened : entry.moment = ⟨seenAt, .connect address recovery, .ok connection⟩) :
    ∃ closing ∈ history, closing.index = entry.index ∧ ∃ code reason,
      closing.moment.call = .close connection.stableId code reason := by
  obtain ⟨report, present, result, reported, failed⟩ := lost
  obtain ⟨before, later, split⟩ := List.append_of_mem present
  have allowed := candidate_entry guaranteed split (claimed_of_report guaranteed present reported).1
  rw [reported] at allowed
  have own : entry.index = report.index := by
    obtain ⟨earlier, _, parts⟩ := List.append_of_mem member
    have call := candidate_entry guaranteed parts task
    rw [opened] at call
    obtain ⟨moment, inside, asked⟩ := call.2
    obtain ⟨claim, started, same, rfl⟩ := mem_momentsOf.mp inside
    have reporter := reporter_of_claim guaranteed claims present reported
      (parts ▸ List.mem_append_left _ started) asked
    exact same.symm.trans reporter.symm
  have inside : entry ∈ before := by
    refine (mem_before_report guaranteed split reported member task own).resolve_right fun same =>
      ?_
    rw [same] at opened
    rw [opened] at reported
    cases reported
  obtain ⟨closedAt, code, reason, closed⟩ := allowed.2.2.2 failed seenAt address recovery connection
    (mem_momentsOf.mpr ⟨entry, inside, own, opened⟩)
  obtain ⟨closing, there, same, made⟩ := mem_momentsOf.mp closed
  exact ⟨closing, split ▸ List.mem_append_left _ there, same.trans own.symm, code, reason,
    by rw [made]⟩

theorem joinedFailures_le_countP (history : History) (job race : Nat) :
    joinedFailures (momentsOf history job) race ≤ history.countP (joinsResult race) := by
  rw [joinedFailures, momentsOf, List.countP_map, List.countP_filter]
  refine List.countP_mono_left fun entry _ joined => ?_
  simp only [Function.comp_apply, Bool.and_eq_true] at joined
  obtain ⟨index, operation, seenAt, made, answer⟩ := entry
  cases made <;> try exact absurd joined.1 Bool.noConfusion
  cases answer with
  | none => exact absurd joined.1 Bool.noConfusion
  | some result =>
    simp only [joinedFailure, Bool.and_eq_true] at joined
    exact joined.1.1

theorem RaceKept.all_ended {race : Nat} (raced : RaceKept history race state)
    (all : state.candidates.length ≤ state.joined) :
    ∀ index ∈ state.claimed, index ∈ state.ended := by
  have counted := raced.joins.counted
  have inside : state.ended ⊆ List.range state.candidates.length := fun index member =>
    List.mem_range.mpr (raced.claims.listed index (raced.ends.ended index member).1)
  have perm : state.ended.Perm (List.range state.candidates.length) :=
    (raced.ends.distinct.subperm inside).perm_of_length_le (by rw [List.length_range]; omega)
  intro index started
  exact perm.mem_iff.mpr (List.mem_range.mpr (raced.claims.listed index started))

/-- When `race_endpoints_on` is done with a race, every candidate that has started has ended. -/
theorem RacesKept.ended_of_returned (kept : RacesKept history world) {race : Nat}
    (returned : RaceReturned (momentsOf history job) race) :
    ∃ state, world.races[race]? = some state ∧ ∀ index ∈ state.claimed, index ∈ state.ended := by
  rcases returned with ⟨moment, inside, awaited⟩ | ⟨count, starts, failed⟩
  · obtain ⟨entry, member, -, rfl⟩ := mem_momentsOf.mp inside
    obtain ⟨state, found⟩ := kept.known entry member race (by rw [awaited]; rfl)
    exact ⟨state, found, ((kept.raced race state found).verdict.complete
      ⟨entry, member, awaited⟩).2⟩
  · obtain ⟨state, found, length⟩ := kept.exists_of_starts starts
    have raced := kept.raced race state found
    refine ⟨state, found, raced.all_ended ?_⟩
    rcases failed with joined | ⟨seenAt, inside⟩
    · have counted := raced.joins.joined
      have few := joinedFailures_le_countP history job race
      omega
    · obtain ⟨entry, member, -, made⟩ := mem_momentsOf.mp inside
      exact raced.joins.exhausted ⟨entry, member, seenAt, made⟩

/-! ## One winner -/

/-- A candidate sends its `SessionAccepted`: a frame that is neither a hello nor a signature, or
that is sent after the selection. -/
def Confirms (self : Runtime) (before : History) (entry : Record) (race index : Nat) : Prop :=
  entry.operation = .candidate race index ∧
    ∃ connection frame limit, entry.moment.call = .send connection frame limit ∧
      (¬ self.Opening frame ∨ Chosen (momentsOf before entry.index) (.race race index))

/-- A candidate that confirms is ahead. -/
theorem Confirms.ahead (guaranteed : self.fullConduct.Guaranteed history)
    {race index : Nat} (claims : Claims history race state) (split : history = before ++ entry :: later)
    (confirms : Confirms self before entry race index) : Ahead before race index := by
  obtain ⟨task, connection, frame, limit, sends, chosen⟩ := confirms
  have allowed := candidate_entry guaranteed split task
  rw [sends] at allowed
  obtain ⟨unreported, ⟨moment, inside, asked⟩, withheld⟩ := allowed
  obtain ⟨claim, started, own, rfl⟩ := mem_momentsOf.mp inside
  constructor
  · have passed : Chosen (momentsOf before entry.index) (.race race index) := by
      rcases withheld connection frame limit rfl with opening | passed
      · exact chosen.resolve_left (not_not_intro opening)
      · exact passed
    obtain ⟨seenAt, selected⟩ := passed race index rfl
    obtain ⟨selection, present, -, made⟩ := mem_momentsOf.mp selected
    exact ⟨selection, present, seenAt, made⟩
  · rintro ⟨report, present, result, reported, -⟩
    have there : ∀ {other}, other ∈ before → other ∈ history := fun member =>
      split ▸ List.mem_append_left _ member
    have same := reporter_of_claim guaranteed claims (there present) reported (there started) asked
    exact unreported report.moment
      (mem_momentsOf.mpr ⟨report, present, same.trans own, rfl⟩) race index result reported

/-- What is true of a race at any time. -/
structure OneWinner (self : Runtime) (pool : Jobs)
    (race : Nat) : Prop where
  /-- There was never more than one candidate that had passed the selection and not failed. -/
  ahead : ∀ before, before <+: pool.history → ∀ index rival, Ahead before race index →
    Ahead before race rival → index = rival
  won : ∀ index rival, Ended pool.history race index true → Ended pool.history race rival true →
    index = rival
  /-- After the winner has confirmed no other candidate has. -/
  confirmed : ∀ earlier winning between entry later winner index,
    pool.history = earlier ++ winning :: (between ++ entry :: later) →
    Confirms self earlier winning race winner → Ended pool.history race winner true →
    Confirms self (earlier ++ winning :: between) entry race index → index = winner
  /-- When a candidate fails that has passed the selection, any waiting one can pass. -/
  freed : ∀ before entry index result, pool.history = before ++ [entry] →
    entry.moment.call = .report race index result → result.result.isOk = false →
    Ahead before race index → ∀ rival, ¬ Ahead pool.history race rival ∧
      ∃ after, self.handle pool.world (.select race rival) (.ok ()) = some (.ok (), after)
  taken : ∀ index rival, Ahead pool.history race index → rival ≠ index →
    ∀ proposal after, self.handle pool.world (.select race rival) proposal ≠ some (.ok (), after)
  /-- When the race has returned, what other candidates have opened is closed. -/
  closed : ∀ dial, RaceReturned (momentsOf pool.history dial) race →
    ∀ entry ∈ pool.history, ∀ index, entry.operation = .candidate race index →
    ∀ seenAt address recovery connection,
    entry.moment = ⟨seenAt, .connect address recovery, .ok connection⟩ →
    ¬ Ended pool.history race index true → ∃ closing ∈ pool.history,
      closing.index = entry.index ∧ ∃ code reason,
        closing.moment.call = .close connection.stableId code reason

/-- What has ended with success in the history of a race is known to it. -/
theorem RacesKept.claims_of_report (kept : RacesKept history world) {race index : Nat}
    {won : Bool} (ended : Ended history race index won) :
    ∃ state, world.races[race]? = some state ∧ Claims history race state := by
  obtain ⟨entry, member, result, report, -⟩ := ended
  obtain ⟨state, found⟩ := kept.known entry member race (by rw [report]; rfl)
  exact ⟨state, found, (kept.raced race state found).claims⟩

/-- No other candidate confirms after the winner. -/
theorem RacesKept.confirmed (guaranteed : self.fullConduct.Guaranteed history)
    (kept : RacesKept history world)
    {race winner index : Nat} {earlier between : History} {winning : Record}
    (split : history = earlier ++ winning :: (between ++ entry :: later))
    (first : Confirms self earlier winning race winner) (won : Ended history race winner true)
    (second : Confirms self (earlier ++ winning :: between) entry race index) :
    index = winner := by
  obtain ⟨state, -, claims⟩ := kept.claims_of_report won
  have again : history = (earlier ++ winning :: between) ++ entry :: later := by
    rw [split, List.append_assoc, List.cons_append]
  have ahead := second.ahead guaranteed claims again
  have unfailed := (ahead_of_won guaranteed claims won).2
  obtain ⟨⟨selection, present, passed⟩, -⟩ := first.ahead guaranteed claims split
  -- the winner has passed before its confirmation and never fails
  have leading : Ahead (earlier ++ winning :: between) race winner := by
    refine ⟨⟨selection, List.mem_append_left _ present, passed⟩, ?_⟩
    rintro ⟨failing, member, failed⟩
    exact unfailed ⟨failing, again ▸ List.mem_append_left _ member, failed⟩
  exact kept.single _ ⟨entry :: later, again.symm⟩ race index winner ahead leading

theorem handle_select_of_free {race index : Nat} (found : world.races[race]? = some state)
    (free : state.selected = none) :
    ∃ after, self.handle world (.select race index) (.ok ()) = some (.ok (), after) := by
  refine ⟨world.setRace race { state with selected := some index }, ?_⟩
  simp only [handle, World.select, found, free, true_or, ↓reduceIte, Option.map_some]

/-- A failing candidate that was ahead leaves the selection to any other. -/
theorem RacesKept.freed (kept : RacesKept history world) {race index : Nat}
    (last : history = before ++ [entry]) (report : entry.moment.call = .report race index result)
    (failed : result.result.isOk = false) (ahead : Ahead before race index) (rival : Nat) :
    ¬ Ahead history race rival ∧
      ∃ after, self.handle world (.select race rival) (.ok ()) = some (.ok (), after) := by
  have member : entry ∈ history := last ▸ List.mem_concat_self
  have nobody : ∀ other, ¬ Ahead history race other := by
    intro other leading
    rw [last] at leading
    rcases ahead_concat leading with before | ⟨seenAt, passed⟩
    · obtain rfl := kept.single _ ⟨[entry], last.symm⟩ race index other ahead before
      exact leading.2 ⟨entry, last ▸ member, result, report, failed⟩
    · rw [passed] at report
      cases report
  obtain ⟨state, found⟩ := kept.known entry member race (by rw [report]; rfl)
  refine ⟨nobody rival, handle_select_of_free found ?_⟩
  cases selected : state.selected with
  | none => rfl
  | some other =>
    exact absurd (((kept.raced race state found).holder other).mpr selected) (nobody other)

theorem RacesKept.taken (kept : RacesKept history world) {race index rival : Nat}
    (ahead : Ahead history race index) (other : rival ≠ index)
    (proposal : Except NetworkError Unit) (after : World) :
    self.handle world (.select race rival) proposal ≠ some (.ok (), after) := by
  intro answered
  obtain ⟨⟨selection, member, seenAt, passed⟩, -⟩ := id ahead
  obtain ⟨state, found⟩ := kept.known selection member race (by rw [passed]; rfl)
  have holds := ((kept.raced race state found).holder index).mp ahead
  rcases select_answer answered with ⟨failed, -⟩ | ⟨-, selected⟩
  · cases failed
  · simp only [World.select, found, holds, reduceCtorEq, Option.some.injEq, false_or] at selected
    rw [if_neg other.symm] at selected
    cases selected

/-- When a race has returned, the candidates that have not won have closed what they had opened. -/
theorem RacesKept.closed (guaranteed : self.fullConduct.Guaranteed history)
    (kept : RacesKept history world) {race index : Nat}
    (returned : RaceReturned (momentsOf history job) race) (member : entry ∈ history)
    (task : entry.operation = .candidate race index) {seenAt : World} {address : SocketAddr}
    {recovery : Bool} {connection : Connection}
    (opened : entry.moment = ⟨seenAt, .connect address recovery, .ok connection⟩)
    (lost : ¬ Ended history race index true) :
    ∃ closing ∈ history, closing.index = entry.index ∧ ∃ code reason,
      closing.moment.call = .close connection.stableId code reason := by
  obtain ⟨state, found, all⟩ := kept.ended_of_returned returned
  have raced := kept.raced race state found
  obtain ⟨before, later, split⟩ := List.append_of_mem member
  have allowed := candidate_entry guaranteed split task
  rw [opened] at allowed
  obtain ⟨moment, inside, asked⟩ := allowed.2
  obtain ⟨claim, started, -, rfl⟩ := mem_momentsOf.mp inside
  have claimed := raced.claims.claimed claim (split ▸ List.mem_append_left _ started) index asked
  obtain ⟨-, report, present, result, reported⟩ := raced.ends.ended index (all index claimed)
  refine closed_of_failed guaranteed raced.claims ⟨report, present, result, reported, ?_⟩
    member task
    opened
  cases outcome : result.result.isOk with
  | false => rfl
  | true => exact absurd ⟨report, present, result, reported, outcome⟩ lost

/-- In every run, whatever the candidates of a race do and however they are interleaved, one at most
is past the selection, wins and confirms; one that fails leaves the selection to one other; and when
`race_endpoints_on` returns, it is done with its race and what the losers have opened is closed. -/
theorem race_has_one_winner (self : Runtime) (database : Database) (inputs : Inputs) :
    (∀ race, OneWinner self (self.after database inputs) race) ∧
      ∀ addresses expected kind source recovery past,
        (self.raceEndpointsOn addresses expected kind source recovery).run.Ensures
          ⟨fun _ _ => True, fun _ _ => True⟩ (fun now _ => ∀ race count, Starts now race count →
            Starts past race count ∨ RaceReturned now race) past := by
  obtain ⟨conduct, kept⟩ := racesKept_run self database inputs
  refine ⟨fun race => ?_, fun addresses expected kind source recovery past =>
    (raceReturned_raceEndpointsOn addresses expected kind source recovery).relax
      (fun _ _ _ => trivial) fun _ _ => id⟩
  constructor
  case ahead => exact fun before part index rival => kept.single before part race index rival
  case won =>
    intro index rival first second
    obtain ⟨state, -, claims⟩ := kept.claims_of_report first
    exact kept.single _ (List.prefix_refl _) race index rival
      (ahead_of_won conduct.entries claims first) (ahead_of_won conduct.entries claims second)
  case confirmed =>
    intro earlier winning between entry later winner index split first won second
    exact kept.confirmed conduct.entries split first won second
  case freed =>
    intro before entry index result last report failed ahead rival
    exact kept.freed last report failed ahead rival
  case taken => exact fun index rival ahead other => kept.taken ahead other
  case closed =>
    intro dial returned entry member index task seenAt address recovery connection opened lost
    exact kept.closed conduct.entries returned member task opened lost

/-- In the shared run the race has a winner. -/
example : (sharedPool.history.any fun entry =>
    match entry.moment.call with
    | .report 0 0 result => result.result.isOk
    | _ => false) = true := by
  decide +kernel

end Runtime

end ArcRelay
