import ArcRelay.Verif.Gates

/-!
# The state of a race and its history

The candidates of a race start, pass the selection and end in some order, and the dial
joins their results. The state of the race is what the history says of this: the selection
permit is with the candidate that passed the selection last, until that candidate fails.
So there is never more than one candidate that has passed and not failed.
-/

namespace ArcRelay

open System (momentsOf mem_momentsOf)

/-- The race a call is about. -/
def Call.onRace : Call → Option Nat
  | .claim race _ | .select race _ | .report race _ _ | .joinNext race | .shutdownRace race
  | .awaitRace race => some race
  | _ => none

/-- What a call on a race does to it. -/
inductive RaceStep (entry : Race) : (call : Call) → call.Reply → Race → Prop
  | claim (race index : Nat) (address : SocketAddr) (undecided : entry.decided = false)
    (unclaimed : index ∉ entry.claimed) (found : entry.candidates[index]? = some address) :
    RaceStep entry (.claim race index) (entry, address)
      { entry with claimed := index :: entry.claimed }
  | select (race index : Nat) (free : entry.selected = none ∨ entry.selected = some index) :
    RaceStep entry (.select race index) (.ok ()) { entry with selected := some index }
  | forgo (race index : Nat) (error : NetworkError) :
    RaceStep entry (.select race index) (.error error) entry
  | report (race index : Nat) (result : CandidateResult) :
    RaceStep entry (.report race index result) () { entry with
      ended := index :: entry.ended
      finished := if entry.decided then entry.finished else entry.finished ++ [result]
      selected :=
        if result.result.isOk = false ∧ entry.selected = some index then none
        else entry.selected }
  | join (race : Nat) (result : CandidateResult) (later : List CandidateResult)
    (next : entry.finished = result :: later) :
    RaceStep entry (.joinNext race) (some result)
      { entry with finished := later, joined := entry.joined + 1 }
  | exhaust (race : Nat) (all : entry.joined = entry.candidates.length) :
    RaceStep entry (.joinNext race) none entry
  | shutdown (race : Nat) :
    RaceStep entry (.shutdownRace race) () { entry with decided := true, finished := [] }
  | await (race : Nat) (ended : ∀ index ∈ entry.claimed, index ∈ entry.ended) :
    RaceStep entry (.awaitRace race) () entry

theorem RaceStep.candidates_eq {state changed : Race} {call : Call} {reply : call.Reply}
    (step : RaceStep state call reply changed) : changed.candidates = state.candidates := by
  cases step <;> rfl

namespace Runtime

variable {self : Runtime}

/-- A call on a race does one of these. -/
theorem race_step {world after : World} {call : Call} {proposal reply : call.Reply}
    (answered : self.handle world call proposal = some (reply, after)) {race : Nat} {entry : Race}
    (about : call.onRace = some race) (found : world.races[race]? = some entry) :
    ∃ changed, after.races = world.races.set race changed ∧ RaceStep entry call reply changed := by
  have same : world.races.set race entry = world.races := by
    obtain ⟨inside, rfl⟩ := List.getElem?_eq_some_iff.mp found
    exact List.set_getElem_self inside
  cases call <;> cases about
  case claim index =>
    simp only [handle, World.claim, found] at answered
    split at answered
    · cases answered
    · rename_i address listed
      split at answered
      · cases answered
      · rename_i pending
        cases answered
        simp only [not_or, Bool.not_eq_true] at pending
        exact ⟨_, rfl, .claim race index address pending.1 pending.2 listed⟩
  case select index =>
    rcases select_answer answered with ⟨rfl, rfl⟩ | ⟨rfl, selected⟩
    · exact ⟨entry, same.symm, .forgo race index _⟩
    · simp only [World.select, found] at selected
      split at selected
      · rename_i free
        cases selected
        exact ⟨_, rfl, .select race index free⟩
      · cases selected
  case report index result =>
    cases answered
    refine ⟨_, ?_, .report race index result⟩
    simp only [World.report, found]
    rfl
  case joinNext =>
    simp only [handle, World.joinNext, found] at answered
    split at answered
    · rename_i result later next
      cases answered
      exact ⟨_, rfl, .join race result later next⟩
    · split at answered
      · rename_i all
        cases answered
        exact ⟨entry, same.symm, .exhaust race all⟩
      · cases answered
  case shutdownRace =>
    cases answered
    refine ⟨_, ?_, .shutdown race⟩
    simp only [World.shutdownRace, found]
    rfl
  case awaitRace =>
    simp only [handle] at answered
    split at answered
    · rename_i ended
      cases answered
      refine ⟨entry, same.symm, .await race ?_⟩
      simpa only [World.raceEnded, found, List.all_eq_true, decide_eq_true_eq] using ended
    · cases answered

/-! ## What the history says about a race -/

/-- A candidate has passed the selection. -/
def Passed (history : History) (race index : Nat) : Prop :=
  ∃ entry ∈ history, ∃ world, entry.moment = ⟨world, .select race index, .ok ()⟩

/-- A candidate has ended, with a session or without. -/
def Ended (history : History) (race index : Nat) (won : Bool) : Prop :=
  ∃ entry ∈ history, ∃ result, entry.moment.call = .report race index result ∧
    result.result.isOk = won

/-- A candidate has passed the selection and has not failed. -/
def Ahead (history : History) (race index : Nat) : Prop :=
  Passed history race index ∧ ¬ Ended history race index false

/-- A result of a race was joined. -/
def joinsResult (race : Nat) (entry : Record) : Bool :=
  match entry.moment with
  | ⟨_, .joinNext joined, some _⟩ => joined == race
  | _ => false

/-- The candidates that have started: each is the task of one job. -/
structure Claims (history : History) (race : Nat) (state : Race) : Prop where
  claimed : ∀ entry ∈ history, ∀ index, entry.moment.call = .claim race index →
    index ∈ state.claimed
  once : ∀ entry ∈ history, ∀ other ∈ history, ∀ index, entry.moment.call = .claim race index →
    other.moment.call = .claim race index → entry.index = other.index
  listed : ∀ index ∈ state.claimed, index < state.candidates.length

/-- The candidates that have ended: each once. -/
structure Ends (history : History) (race : Nat) (state : Race) : Prop where
  reported : ∀ entry ∈ history, ∀ index result, entry.moment.call = .report race index result →
    index ∈ state.ended
  ended : ∀ index ∈ state.ended, index ∈ state.claimed ∧
    ∃ entry ∈ history, ∃ result, entry.moment.call = .report race index result
  distinct : state.ended.Nodup

/-- The results that have been joined. -/
structure Joins (history : History) (race : Nat) (state : Race) : Prop where
  counted : state.joined + state.finished.length ≤ state.ended.length
  joined : history.countP (joinsResult race) ≤ state.joined
  /-- There are no more results only if all have been joined. -/
  exhausted : (∃ entry ∈ history, ∃ world, entry.moment = ⟨world, .joinNext race, none⟩) →
    state.candidates.length ≤ state.joined

/-- The end of a race with a winner. -/
structure Verdict (history : History) (race : Nat) (state : Race) : Prop where
  shut : (∃ entry ∈ history, entry.moment.call = .shutdownRace race) → state.decided = true
  /-- All that have started have ended, and no other will start. -/
  complete : (∃ entry ∈ history, entry.moment.call = .awaitRace race) →
    state.decided = true ∧ ∀ index ∈ state.claimed, index ∈ state.ended

/-- The state of a race is what the history says. -/
structure RaceKept (history : History) (race : Nat) (state : Race) : Prop where
  claims : Claims history race state
  ends : Ends history race state
  joins : Joins history race state
  verdict : Verdict history race state
  /-- The candidate that is ahead has the selection permit. -/
  holder : ∀ index, Ahead history race index ↔ state.selected = some index

section Fields

variable {history : History} {race : Nat} {state changed : Race} {last : Record}

/-- A call that starts no candidate. -/
theorem Claims.keep (claims : Claims history race state)
    (other : ∀ index, last.moment.call ≠ .claim race index)
    (same : changed.claimed = state.claimed) (list : changed.candidates = state.candidates) :
    Claims (history ++ [last]) race changed := by
  refine ⟨fun entry member index claim => ?_, fun entry member rival present index claim again =>
    ?_,
    fun index member => ?_⟩
  · rcases List.mem_concat_iff.mp member with earlier | now
    · exact same ▸ claims.claimed entry earlier index claim
    · exact absurd (now ▸ claim) (other index)
  · rcases List.mem_concat_iff.mp member with earlier | now
    · rcases List.mem_concat_iff.mp present with before | here
      · exact claims.once entry earlier rival before index claim again
      · exact absurd (here ▸ again) (other index)
    · exact absurd (now ▸ claim) (other index)
  · rw [list]
    exact claims.listed index (same ▸ member)

theorem Ends.keep (ends : Ends history race state)
    (other : ∀ index result, last.moment.call ≠ .report race index result)
    (grown : state.claimed ⊆ changed.claimed) (same : changed.ended = state.ended) :
    Ends (history ++ [last]) race changed := by
  refine ⟨fun entry member index result report => ?_, fun index member => ?_, same ▸ ends.distinct⟩
  · rcases List.mem_concat_iff.mp member with earlier | now
    · exact same ▸ ends.reported entry earlier index result report
    · exact absurd (now ▸ report) (other index result)
  · obtain ⟨started, entry, present, reported⟩ := ends.ended index (same ▸ member)
    exact ⟨grown started, entry, List.mem_append_left _ present, reported⟩

theorem Joins.keep (joined : Joins history race state) (other : joinsResult race last = false)
    (more : ∀ world, last.moment ≠ ⟨world, .joinNext race, none⟩)
    (counted : changed.joined + changed.finished.length ≤ changed.ended.length)
    (same : changed.joined = state.joined) (list : changed.candidates = state.candidates) :
    Joins (history ++ [last]) race changed := by
  refine ⟨counted, ?_, ?_⟩
  · rw [List.countP_append, List.countP_singleton, other, same]
    exact joined.joined
  · rintro ⟨entry, member, world, exhausted⟩
    rcases List.mem_concat_iff.mp member with earlier | now
    · rw [same, list]
      exact joined.exhausted ⟨entry, earlier, world, exhausted⟩
    · exact absurd (now ▸ exhausted) (more world)

/-- A call that neither decides a race nor waits for its end. -/
theorem Verdict.keep (verdict : Verdict history race state)
    (undecided : last.moment.call ≠ .shutdownRace race)
    (unawaited : last.moment.call ≠ .awaitRace race)
    (decided : state.decided = true → changed.decided = true)
    (closed : state.decided = true → ∀ index ∈ changed.claimed, index ∈ state.claimed)
    (grown : state.ended ⊆ changed.ended) : Verdict (history ++ [last]) race changed := by
  refine ⟨?_, ?_⟩
  · rintro ⟨entry, member, shut⟩
    rcases List.mem_concat_iff.mp member with earlier | now
    · exact decided (verdict.shut ⟨entry, earlier, shut⟩)
    · exact absurd (now ▸ shut) undecided
  · rintro ⟨entry, member, awaited⟩
    rcases List.mem_concat_iff.mp member with earlier | now
    · obtain ⟨shut, all⟩ := verdict.complete ⟨entry, earlier, awaited⟩
      exact ⟨decided shut, fun index started => grown (all index (closed shut index started))⟩
    · exact absurd (now ▸ awaited) unawaited

theorem ahead_concat {index : Nat} (ahead : Ahead (history ++ [last]) race index) :
    Ahead history race index ∨ ∃ world, last.moment = ⟨world, .select race index, .ok ()⟩ := by
  obtain ⟨⟨entry, member, world, passed⟩, unfailed⟩ := ahead
  rcases List.mem_concat_iff.mp member with earlier | now
  · refine .inl ⟨⟨entry, earlier, world, passed⟩, ?_⟩
    rintro ⟨failing, present, result, failed⟩
    exact unfailed ⟨failing, List.mem_append_left _ present, result, failed⟩
  · exact .inr ⟨world, now ▸ passed⟩

theorem Ahead.concat {index : Nat} (ahead : Ahead history race index)
    (other : ∀ result, last.moment.call = .report race index result → result.result.isOk = true) :
    Ahead (history ++ [last]) race index := by
  obtain ⟨⟨entry, member, world, passed⟩, unfailed⟩ := ahead
  refine ⟨⟨entry, List.mem_append_left _ member, world, passed⟩, ?_⟩
  rintro ⟨failing, present, result, report, failed⟩
  rcases List.mem_concat_iff.mp present with earlier | now
  · exact unfailed ⟨failing, earlier, result, report, failed⟩
  · rw [now] at report
    exact absurd ((other result report).symm.trans failed) Bool.noConfusion

theorem holder_keep (holder : ∀ index, Ahead history race index ↔ state.selected = some index)
    (unselected : ∀ world index, last.moment ≠ ⟨world, .select race index, .ok ()⟩)
    (unreported : ∀ index result, last.moment.call ≠ .report race index result) (index : Nat) :
    Ahead (history ++ [last]) race index ↔ state.selected = some index := by
  rw [← holder index]
  constructor
  · intro ahead
    exact (ahead_concat ahead).resolve_right fun ⟨world, passed⟩ => unselected world index passed
  · intro ahead
    exact ahead.concat fun result report => absurd report (unreported index result)

/-- A call on something else. -/
theorem RaceKept.other (raced : RaceKept history race state)
    (other : last.moment.call.onRace ≠ some race) :
    RaceKept (history ++ [last]) race state := by
  have apart : ∀ call : Call, call.onRace = some race → last.moment.call ≠ call :=
    fun call about same => other (same ▸ about)
  have unjoined : joinsResult race last = false := by
    unfold joinsResult
    split
    · rename_i joined result made
      refine beq_eq_false_iff_ne.mpr fun same => ?_
      exact apart (.joinNext race) rfl (by rw [made, same])
    · rfl
  refine ⟨raced.claims.keep (fun _ => apart _ rfl) rfl rfl,
    raced.ends.keep (fun _ _ => apart _ rfl) (List.Subset.refl _) rfl,
    raced.joins.keep unjoined (fun world made => ?_) raced.joins.counted rfl rfl,
    raced.verdict.keep (apart _ rfl) (apart _ rfl) id (fun _ _ => id) (List.Subset.refl _),
    holder_keep raced.holder (fun world index passed => ?_) fun _ _ => apart _ rfl⟩
  · exact apart (.joinNext race) rfl (by rw [made])
  · exact apart (.select race index) rfl (by rw [passed])

/-- A candidate starts. -/
theorem Claims.claim (claims : Claims history race state) {index : Nat} {address : SocketAddr}
    (called : last.moment.call = .claim race index) (unclaimed : index ∉ state.claimed)
    (found : state.candidates[index]? = some address) :
    Claims (history ++ [last]) race { state with claimed := index :: state.claimed } := by
  refine ⟨fun entry member place claim => ?_, fun entry member rival present place claim again =>
    ?_,
    fun place member => ?_⟩
  · rcases List.mem_concat_iff.mp member with earlier | now
    · exact List.mem_cons_of_mem _ (claims.claimed entry earlier place claim)
    · rw [now, called] at claim
      cases claim
      exact List.mem_cons_self
  · have fresh : ∀ other ∈ history, other.moment.call ≠ .claim race index :=
      fun other earlier same => unclaimed (claims.claimed other earlier index same)
    rcases List.mem_concat_iff.mp member with earlier | now
    · rcases List.mem_concat_iff.mp present with before | here
      · exact claims.once entry earlier rival before place claim again
      · rw [here, called] at again
        cases again
        exact absurd claim (fresh entry earlier)
    · rcases List.mem_concat_iff.mp present with before | here
      · rw [now, called] at claim
        cases claim
        exact absurd again (fresh rival before)
      · rw [now, here]
  · rcases List.mem_cons.mp member with rfl | earlier
    · exact (List.getElem?_eq_some_iff.mp found).1
    · exact claims.listed place earlier

/-- A candidate ends that had started and has not ended. -/
theorem Ends.report (ends : Ends history race state) {index : Nat} {result : CandidateResult}
    (called : last.moment.call = .report race index result) (started : index ∈ state.claimed)
    (unreported : index ∉ state.ended) (same : changed.claimed = state.claimed)
    (now : changed.ended = index :: state.ended) : Ends (history ++ [last]) race changed := by
  have present : last ∈ history ++ [last] := List.mem_concat_self
  refine ⟨fun entry member place other report => ?_, fun place member => ?_, ?_⟩
  · rw [now]
    rcases List.mem_concat_iff.mp member with earlier | here
    · exact List.mem_cons_of_mem _ (ends.reported entry earlier place other report)
    · rw [here, called] at report
      cases report
      exact List.mem_cons_self
  · rw [now] at member
    rw [same]
    rcases List.mem_cons.mp member with rfl | earlier
    · exact ⟨started, last, present, result, called⟩
    · obtain ⟨began, entry, inside, reported⟩ := ends.ended place earlier
      exact ⟨began, entry, List.mem_append_left _ inside, reported⟩
  · rw [now]
    exact List.nodup_cons.mpr ⟨unreported, ends.distinct⟩

/-- A call on the race: a candidate that ends had started and has not ended before, and the end is
awaited only when the race is decided. -/
theorem RaceKept.step (raced : RaceKept history race state) {job : Nat} {operation : Operation}
    {world : World} {call : Call} {reply : call.Reply} (step : RaceStep state call reply changed)
    (about : call.onRace = some race)
    (selects : ∀ index, call = .select race index → ¬ Ended history race index false)
    (reports : ∀ index result, call = .report race index result →
      index ∈ state.claimed ∧ index ∉ state.ended)
    (awaits : call = .awaitRace race → state.decided = true) :
    RaceKept (history ++ [⟨job, operation, ⟨world, call, reply⟩⟩]) race changed := by
  have kept := @holder_keep history race state ⟨job, operation, ⟨world, call, reply⟩⟩ raced.holder
  cases step with
  | claim claimed index address undecided unclaimed found =>
    cases about
    refine ⟨raced.claims.claim rfl unclaimed found,
      raced.ends.keep (by simp) (List.subset_cons_self _ _) rfl,
      raced.joins.keep rfl (by simp) raced.joins.counted rfl rfl,
      raced.verdict.keep (by simp) (by simp) id (fun decided => ?_) (List.Subset.refl _),
      kept (by simp) (by simp)⟩
    exact absurd (undecided.symm.trans decided) Bool.noConfusion
  | select selected index free =>
    cases about
    refine ⟨raced.claims.keep (by simp) rfl rfl,
      raced.ends.keep (by simp) (List.Subset.refl _) rfl,
      raced.joins.keep rfl (by simp) raced.joins.counted rfl rfl,
      raced.verdict.keep (by simp) (by simp) id (fun _ _ => id) (List.Subset.refl _),
      fun place => ⟨fun ahead => ?_, fun holds => ?_⟩⟩
    · rcases ahead_concat ahead with before | ⟨passedAt, passed⟩
      · have holds := (raced.holder place).mp before
        rcases free with none | same
        · exact absurd (holds.symm.trans none) (by simp)
        · exact same.symm.trans holds
      · cases passed
        rfl
    · obtain rfl := Option.some.inj holds
      refine ⟨⟨_, List.mem_concat_self, world, rfl⟩, ?_⟩
      rintro ⟨failing, present, result, report, failed⟩
      rcases List.mem_concat_iff.mp present with earlier | now
      · exact selects index rfl ⟨failing, earlier, result, report, failed⟩
      · rw [now] at report
        cases report
  | forgo selected index error =>
    cases about
    refine ⟨raced.claims.keep (by simp) rfl rfl,
      raced.ends.keep (by simp) (List.Subset.refl _) rfl,
      raced.joins.keep rfl (by simp) raced.joins.counted rfl rfl,
      raced.verdict.keep (by simp) (by simp) id (fun _ _ => id) (List.Subset.refl _),
      kept (fun seenAt place passed => ?_) (by simp)⟩
    cases passed
  | report reported index result =>
    cases about
    obtain ⟨started, unreported⟩ := reports index result rfl
    have counted := raced.joins.counted
    refine ⟨raced.claims.keep (by simp) rfl rfl, raced.ends.report rfl started unreported rfl rfl,
      raced.joins.keep rfl (by simp) ?_ rfl rfl,
      raced.verdict.keep (by simp) (by simp) id (fun _ _ => id) (List.subset_cons_self _ _),
      fun place => ⟨fun ahead => ?_, fun holds => ?_⟩⟩
    · rw [List.length_cons]
      dsimp only
      split
      · omega
      · rw [List.length_append, List.length_singleton]
        omega
    · have before := (raced.holder place).mp ((ahead_concat ahead).resolve_right (by simp))
      have unfailed : ¬ (result.result.isOk = false ∧ state.selected = some index) := by
        rintro ⟨failed, holds⟩
        obtain rfl : place = index := Option.some.inj (before.symm.trans holds)
        exact ahead.2 ⟨_, List.mem_concat_self, result, rfl, failed⟩
      exact (if_neg unfailed).trans before
    · have unfailed : ¬ (result.result.isOk = false ∧ state.selected = some index) := by
        intro failed
        exact absurd ((if_pos failed).symm.trans holds) (by simp)
      have before : state.selected = some place := (if_neg unfailed).symm.trans holds
      refine ((raced.holder place).mpr before).concat fun other same => ?_
      cases same
      cases succeeded : result.result.isOk with
      | true => rfl
      | false => exact absurd ⟨succeeded, before⟩ unfailed
  | join joined result later next =>
    cases about
    have counted := raced.joins.counted
    rw [next, List.length_cons] at counted
    refine ⟨raced.claims.keep (by simp) rfl rfl,
      raced.ends.keep (by simp) (List.Subset.refl _) rfl, ⟨?_, ?_, ?_⟩,
      raced.verdict.keep (by simp) (by simp) id (fun _ _ => id) (List.Subset.refl _),
      kept (by simp) (by simp)⟩
    · dsimp only
      omega
    · have before := raced.joins.joined
      have now : joinsResult race ⟨job, operation, ⟨world, .joinNext race, some result⟩⟩ = true :=
        beq_self_eq_true race
      rw [List.countP_append, List.countP_singleton, if_pos now]
      exact Nat.add_le_add_right before 1
    · rintro ⟨entry, member, seenAt, exhausted⟩
      rcases List.mem_concat_iff.mp member with earlier | now
      · have all := raced.joins.exhausted ⟨entry, earlier, seenAt, exhausted⟩
        exact Nat.le_succ_of_le all
      · rw [now] at exhausted
        cases exhausted
  | exhaust joined all =>
    cases about
    refine ⟨raced.claims.keep (by simp) rfl rfl,
      raced.ends.keep (by simp) (List.Subset.refl _) rfl,
      ⟨raced.joins.counted, ?_, fun _ => all.symm.le⟩,
      raced.verdict.keep (by simp) (by simp) id (fun _ _ => id) (List.Subset.refl _),
      kept (by simp) (by simp)⟩
    have now : joinsResult race ⟨job, operation, ⟨world, .joinNext race, none⟩⟩ = false := rfl
    rw [List.countP_append, List.countP_singleton, now]
    exact raced.joins.joined
  | shutdown shut =>
    cases about
    have counted := raced.joins.counted
    refine ⟨raced.claims.keep (by simp) rfl rfl,
      raced.ends.keep (by simp) (List.Subset.refl _) rfl,
      raced.joins.keep rfl (by simp) ?_ rfl rfl, ⟨fun _ => rfl, ?_⟩,
      kept (by simp) (by simp)⟩
    · dsimp only [List.length_nil]
      omega
    · rintro ⟨entry, member, awaited⟩
      rcases List.mem_concat_iff.mp member with earlier | now
      · exact ⟨rfl, (raced.verdict.complete ⟨entry, earlier, awaited⟩).2⟩
      · rw [now] at awaited
        cases awaited
  | await awaited ended =>
    cases about
    refine ⟨raced.claims.keep (by simp) rfl rfl,
      raced.ends.keep (by simp) (List.Subset.refl _) rfl,
      raced.joins.keep rfl (by simp) raced.joins.counted rfl rfl,
      ⟨fun _ => awaits rfl, fun _ => ⟨awaits rfl, ended⟩⟩,
      kept (by simp) (by simp)⟩

end Fields

/-! ## All races -/

/-- The races are what the history says, and there was never more than one candidate ahead. -/
structure RacesKept (history : History) (world : World) : Prop where
  known : ∀ entry ∈ history, ∀ race, entry.moment.call.onRace = some race →
    ∃ state, world.races[race]? = some state
  started : ∀ entry ∈ history, ∀ before expected kind candidates recovery race,
    entry.moment = ⟨before, .startRace expected kind candidates recovery, race⟩ →
      ∃ state, world.races[race]? = some state ∧ state.candidates = candidates
  raced : ∀ race state, world.races[race]? = some state → RaceKept history race state
  single : ∀ before, before <+: history → ∀ race index rival, Ahead before race index →
    Ahead before race rival → index = rival

variable {history : History} {world after : World}

theorem candidate_entry (guaranteed : self.fullConduct.Guaranteed history) {entry : Record}
    {before later : History} {race index : Nat} (split : history = before ++ entry :: later)
    (task : entry.operation = .candidate race index) :
    CandidateCall self race index (momentsOf before entry.index) entry.moment.call :=
  (guaranteed before entry later split).2.2 race index task

/-- What a candidate had asked for before it ended, its job has asked for. -/
theorem claimed_of_report (guaranteed : self.fullConduct.Guaranteed history) {entry : Record}
    (member : entry ∈ history) {race index : Nat} {result : CandidateResult}
    (report : entry.moment.call = .report race index result) :
    entry.operation = .candidate race index ∧
      ∃ claim ∈ history, claim.index = entry.index ∧ claim.moment.call = .claim race index := by
  obtain ⟨before, later, split⟩ := List.append_of_mem member
  have proper := (guaranteed before entry later split).1
  rw [report] at proper
  have call := candidate_entry guaranteed split proper.1
  rw [report] at call
  obtain ⟨moment, inside, asked⟩ := call.2.1
  obtain ⟨claim, present, own, rfl⟩ := mem_momentsOf.mp inside
  exact ⟨proper.1, claim, split ▸ List.mem_append_left _ present, own, asked⟩

theorem reporter_of_claim (guaranteed : self.fullConduct.Guaranteed history) {race index : Nat}
    {state : Race} (claims : Claims history race state) {entry claim : Record}
    {result : CandidateResult} (member : entry ∈ history)
    (report : entry.moment.call = .report race index result) (present : claim ∈ history)
    (claimed : claim.moment.call = .claim race index) : entry.index = claim.index := by
  obtain ⟨-, own, inside, same, again⟩ := claimed_of_report guaranteed member report
  exact same.symm.trans (claims.once own inside claim present index again claimed)

variable {job : Nat} {operation : Operation} {call : Call} {proposal reply : call.Reply}

theorem RacesKept.exists_of_starts (kept : RacesKept history world) {race count : Nat}
    (starts : Starts (momentsOf history job) race count) :
    ∃ state, world.races[race]? = some state ∧ state.candidates.length = count := by
  obtain ⟨startedAt, expected, kind, candidates, recovery, length, inside⟩ := starts
  obtain ⟨entry, present, -, made⟩ := mem_momentsOf.mp inside
  obtain ⟨state, found, same⟩ :=
    kept.started entry present startedAt expected kind candidates recovery race made
  exact ⟨state, found, by rw [same, length]⟩

theorem RacesKept.exists_of_claim (kept : RacesKept history world) {race index : Nat}
    (asked : Asked (momentsOf history job) (.claim race index)) :
    ∃ state, world.races[race]? = some state := by
  obtain ⟨moment, inside, claimed⟩ := asked
  obtain ⟨entry, present, -, rfl⟩ := mem_momentsOf.mp inside
  exact kept.known entry present race (by rw [claimed]; rfl)

/-- A call is made on a race that was started. -/
theorem RacesKept.exists_of_call (kept : RacesKept history world)
    (proper : Proper self operation (momentsOf history job) call)
    (racing : Racing self operation (momentsOf history job) call)
    (answered : self.handle world call proposal = some (reply, after)) {race : Nat}
    (about : call.onRace = some race) : ∃ state, world.races[race]? = some state := by
  have dials : operation.dialKey.isSome = true → ∃ key, operation.dialKey = some key :=
    Option.isSome_iff_exists.mp
  cases call <;> cases about
  case claim index =>
    by_contra absent
    have missing : world.races[race]? = none := by
      cases found : world.races[race]? with
      | none => rfl
      | some state => exact absurd ⟨state, found⟩ absent
    simp only [handle, World.claim, missing] at answered
    cases answered
  case select index => exact kept.exists_of_claim (racing.2 race index proper).2
  case report index result => exact kept.exists_of_claim (racing.2 race index proper.1).2.1
  case joinNext =>
    obtain ⟨key, same⟩ := dials proper
    obtain ⟨count, starts⟩ := (racing.1 key same).1.1
    obtain ⟨state, found, -⟩ := kept.exists_of_starts starts
    exact ⟨state, found⟩
  case shutdownRace =>
    obtain ⟨key, same⟩ := dials proper
    obtain ⟨count, starts⟩ := (racing.1 key same).1
    obtain ⟨state, found, -⟩ := kept.exists_of_starts starts
    exact ⟨state, found⟩
  case awaitRace =>
    obtain ⟨key, same⟩ := dials proper
    obtain ⟨count, starts⟩ := (racing.1 key same).1.1
    obtain ⟨state, found, -⟩ := kept.exists_of_starts starts
    exact ⟨state, found⟩

/-- A call on a race leaves the races as the history says. -/
theorem RacesKept.raced_call (kept : RacesKept history world)
    (guaranteed : self.fullConduct.Guaranteed history)
    (proper : Proper self operation (momentsOf history job) call)
    (racing : Racing self operation (momentsOf history job) call)
    {race : Nat} {state changed : Race} (found : world.races[race]? = some state)
    (step : RaceStep state call reply changed) (about : call.onRace = some race) :
    RaceKept (history ++ [⟨job, operation, ⟨world, call, reply⟩⟩]) race changed := by
  have raced := kept.raced race state found
  refine raced.step step about (fun index same => ?_) (fun index result same => ?_) fun same => ?_
  · subst same
    obtain ⟨unreported, ⟨moment, inside, claimed⟩⟩ := racing.2 race index proper
    obtain ⟨claim, present, own, rfl⟩ := mem_momentsOf.mp inside
    rintro ⟨entry, member, other, report, -⟩
    have ours := reporter_of_claim guaranteed raced.claims member report present claimed
    exact unreported entry.moment (mem_momentsOf.mpr ⟨entry, member, ours.trans own, rfl⟩)
      race index other report
  · subst same
    obtain ⟨unreported, ⟨moment, inside, claimed⟩, -⟩ := racing.2 race index proper.1
    obtain ⟨claim, present, own, rfl⟩ := mem_momentsOf.mp inside
    refine ⟨raced.claims.claimed claim present index claimed, fun again => ?_⟩
    obtain ⟨-, entry, member, other, report⟩ := raced.ends.ended index again
    have ours := reporter_of_claim guaranteed raced.claims member report present claimed
    exact unreported entry.moment (mem_momentsOf.mpr ⟨entry, member, ours.trans own, rfl⟩)
      race index other report
  · subst same
    obtain ⟨key, dials⟩ := Option.isSome_iff_exists.mp proper
    obtain ⟨moment, inside, shut⟩ := (racing.1 key dials).1.2
    obtain ⟨entry, member, -, rfl⟩ := mem_momentsOf.mp inside
    exact raced.verdict.shut ⟨entry, member, shut⟩

/-- The state of a race that has just been started. -/
theorem raced_start {expected : ExpectedPeer} {kind : SessionKind} {candidates : List SocketAddr}
    {recovery : Bool} {race : Nat}
    (unknown : ∀ entry ∈ history, entry.moment.call.onRace ≠ some race) :
    RaceKept history race (.start expected kind candidates recovery) := by
  have absent : ∀ entry ∈ history, ∀ call : Call, call.onRace = some race →
      entry.moment.call ≠ call := fun entry member call about same =>
    unknown entry member (same ▸ about)
  refine ⟨⟨fun entry member index claim => ?_, fun entry member _ _ index claim => ?_, nofun⟩,
    ⟨fun entry member index result report => ?_, nofun, List.nodup_nil⟩,
    ⟨le_refl _, ?_, ?_⟩, ⟨?_, ?_⟩, ?_⟩
  · exact absurd claim (absent entry member _ rfl)
  · exact absurd claim (absent entry member _ rfl)
  · exact absurd report (absent entry member _ rfl)
  · refine (List.countP_eq_zero.mpr fun entry member joined => ?_).le
    unfold joinsResult at joined
    split at joined
    · rename_i place result made
      obtain rfl := beq_iff_eq.mp joined
      exact absent entry member (.joinNext place) rfl (by rw [made])
    · cases joined
  · rintro ⟨entry, member, seenAt, made⟩
    exact absurd (by rw [made]) (absent entry member (.joinNext race) rfl)
  · rintro ⟨entry, member, made⟩
    exact absurd made (absent entry member _ rfl)
  · rintro ⟨entry, member, made⟩
    exact absurd made (absent entry member _ rfl)
  · refine fun index => ⟨?_, nofun⟩
    rintro ⟨⟨entry, member, seenAt, made⟩, -⟩
    exact absurd (by rw [made]) (absent entry member (.select race index) rfl)

/-- What a call leaves of the races. -/
structure Continued (history : History) (job : Nat) (operation : Operation) (world : World)
    (call : Call) (reply : call.Reply) (after : World) : Prop where
  stays : ∀ (race : Nat) (state : Race), world.races[race]? = some state →
    ∃ later : Race, after.races[race]? = some later ∧ later.candidates = state.candidates
  raced : ∀ (race : Nat) (state : Race), after.races[race]? = some state →
    RaceKept (history ++ [⟨job, operation, ⟨world, call, reply⟩⟩]) race state

/-- A call on a race. -/
theorem continued_of_onRace (guaranteed : self.fullConduct.Guaranteed history)
    (kept : RacesKept history world) (proper : Proper self operation (momentsOf history job) call)
    (racing : Racing self operation (momentsOf history job) call)
    (answered : self.handle world call proposal = some (reply, after)) {race : Nat}
    (about : call.onRace = some race) :
    Continued history job operation world call reply after := by
  obtain ⟨state, found⟩ := kept.exists_of_call proper racing answered about
  obtain ⟨changed, races, step⟩ := race_step answered about found
  have inside : race < world.races.length := (List.getElem?_eq_some_iff.mp found).1
  have here : after.races[race]? = some changed := by rw [races, List.getElem?_set_self inside]
  refine ⟨fun place other present => ?_, fun place other present => ?_⟩
  · by_cases same : race = place
    · subst same
      obtain rfl : state = other := Option.some.inj (found.symm.trans present)
      exact ⟨changed, here, step.candidates_eq⟩
    · exact ⟨other, by rw [races, List.getElem?_set_ne same, present], rfl⟩
  · by_cases same : race = place
    · subst same
      obtain rfl : changed = other := Option.some.inj (here.symm.trans present)
      exact kept.raced_call guaranteed proper racing found step about
    · rw [races, List.getElem?_set_ne same] at present
      refine (kept.raced place other present).other fun also => same ?_
      exact Option.some.inj (about.symm.trans also)

theorem continued_of_frame (kept : RacesKept history world) (aside : call.onRace = none)
    (same : after.races = world.races) :
    Continued history job operation world call reply after := by
  refine ⟨fun race state found => ⟨state, by rw [same, found], rfl⟩, fun race state found => ?_⟩
  rw [same] at found
  refine (kept.raced race state found).other fun about => ?_
  exact absurd (aside.symm.trans about) (by simp)

/-- A race is started. -/
theorem continued_of_start (kept : RacesKept history world) {expected : ExpectedPeer}
    {kind : SessionKind} {candidates : List SocketAddr} {recovery : Bool} {race : Nat}
    (same : after.races = world.races ++ [.start expected kind candidates recovery]) :
    Continued history job operation world (.startRace expected kind candidates recovery) race
      after := by
  refine ⟨fun place state found => ⟨state, ?_, rfl⟩, fun place state found => ?_⟩
  · rw [same, List.getElem?_append_left (List.getElem?_eq_some_iff.mp found).1, found]
  · rw [same] at found
    by_cases old : place < world.races.length
    · rw [List.getElem?_append_left old] at found
      exact (kept.raced place state found).other (by simp [Call.onRace])
    · rw [List.getElem?_append_right (by omega)] at found
      obtain rfl := List.mem_singleton.mp (List.mem_of_getElem? found)
      refine (raced_start fun entry member about => ?_).other (by simp [Call.onRace])
      obtain ⟨earlier, present⟩ := kept.known entry member place about
      exact old (List.getElem?_eq_some_iff.mp present).1

theorem continued_of_call (guaranteed : self.fullConduct.Guaranteed history)
    (kept : RacesKept history world) (proper : Proper self operation (momentsOf history job) call)
    (racing : Racing self operation (momentsOf history job) call)
    (answered : self.handle world call proposal = some (reply, after)) :
    Continued history job operation world call reply after := by
  cases about : call.onRace with
  | some race => exact continued_of_onRace guaranteed kept proper racing answered about
  | none =>
    cases touches : call.touchesRaces with
    | false => exact continued_of_frame kept about ((handle_frame answered).races touches)
    | true =>
      cases call <;> cases touches <;> try cases about
      cases answered
      exact continued_of_start kept rfl

/-- A call keeps the races. -/
theorem racesKept_call (guaranteed : self.fullConduct.Guaranteed history)
    (kept : RacesKept history world) (proper : Proper self operation (momentsOf history job) call)
    (racing : Racing self operation (momentsOf history job) call)
    (answered : self.handle world call proposal = some (reply, after)) :
    RacesKept (history ++ [⟨job, operation, ⟨world, call, reply⟩⟩]) after := by
  obtain ⟨stays, raced⟩ := continued_of_call guaranteed kept proper racing answered
  have known : ∀ entry ∈ history ++ [⟨job, operation, ⟨world, call, reply⟩⟩], ∀ race,
      entry.moment.call.onRace = some race → ∃ state, after.races[race]? = some state := by
    intro entry member race about
    have before : ∃ state, world.races[race]? = some state := by
      rcases List.mem_concat_iff.mp member with earlier | now
      · exact kept.known entry earlier race about
      · rw [now] at about
        exact kept.exists_of_call proper racing answered about
    obtain ⟨state, found⟩ := before
    obtain ⟨later, present, -⟩ := stays race state found
    exact ⟨later, present⟩
  refine ⟨known, ?_, raced, ?_⟩
  · intro entry member before expected kind candidates recovery race made
    rcases List.mem_concat_iff.mp member with earlier | now
    · obtain ⟨state, found, same⟩ :=
        kept.started entry earlier before expected kind candidates recovery race made
      obtain ⟨later, present, list⟩ := stays race state found
      exact ⟨later, present, list.trans same⟩
    · rw [now] at made
      cases made
      cases answered
      exact ⟨.start expected kind candidates recovery, by simp, rfl⟩
  · intro before part race index rival ahead ahead'
    rcases List.prefix_concat_iff.mp part with rfl | earlier
    · obtain ⟨⟨entry, member, world', passed⟩, -⟩ := id ahead
      obtain ⟨state, found⟩ := known entry member race (by rw [passed]; rfl)
      have one := ((raced race state found).holder index).mp ahead
      have other := ((raced race state found).holder rival).mp ahead'
      exact Option.some.inj (one.symm.trans other)
    · exact kept.single before earlier race index rival ahead ahead'

/-- The races are kept in every run. -/
theorem racesKept_run (self : Runtime) (database : Database) (inputs : Inputs) :
    self.fullConduct.Kept (self.after database inputs) ∧ RacesKept
      (self.after database inputs).history (self.after database inputs).world := by
  refine self.fullConduct.invariant_always RacesKept ?_ (fun guaranteed kept made answered =>
    racesKept_call guaranteed kept made.1 made.2 answered) (fun event kept => ?_) inputs
  · refine ⟨fun entry absent => absurd absent List.not_mem_nil,
      fun entry absent => absurd absent List.not_mem_nil, fun race state found => ?_,
      fun before part race index rival ahead => ?_⟩
    · have missing : (World.fresh database).races[race]? = none := List.getElem?_nil
      exact absurd (missing.symm.trans found) (by simp)
    · obtain ⟨⟨entry, member, -⟩, -⟩ := ahead
      rw [List.prefix_nil.mp part] at member
      cases member
  · rename_i history world
    have races : (self.system.disturb world event).races = world.races :=
      World.disturb_races world event
    exact ⟨by rw [races]; exact kept.known, by rw [races]; exact kept.started,
      by rw [races]; exact kept.raced, kept.single⟩

end Runtime

end ArcRelay
