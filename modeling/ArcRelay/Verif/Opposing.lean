import ArcRelay.Verif.TwoParty

/-!
# Opposing dials converge

When each of two runtimes has dialled the other, both registries end with the
same session, whatever the order of the registrations at either end and whenever
a close becomes visible. The survivor is the direct session if exactly one is
relayed, and otherwise the one with the smaller rank.
-/

namespace ArcRelay.TwoParty

open Sides (Side)

/-- The session that survives: the direct one if exactly one is relayed, otherwise the one with
the smaller rank. -/
def survivor (pair : DialPair) : Dial :=
  if pair.relayed .first = pair.relayed .second then
    if pair.rank .first < pair.rank .second then .first else .second
  else if pair.relayed .first then .second
  else .first

/-! ## Arbitration of opposing dials -/

theorem initiatorId_ne {pair : DialPair} (opposing : pair.initiator .first ≠ pair.initiator .second)
    (side : Side) : (pair.session .first side).rank.initiatorId ≠
      (pair.session .second side).rank.initiatorId := by
  rw [pair.ranked, pair.ranked]
  have distinct := pair.distinct
  cases first : pair.initiator .first <;> cases second : pair.initiator .second <;>
    simp_all [Ne.symm distinct]

/-- A registered session survives one of another initiator when it alone is direct, or when its
rank is smaller and both or neither are relayed. -/
theorem keepsActive_opposing {active session : Session}
    (opposing : active.rank.initiatorId ≠ session.rank.initiatorId) :
    Registry.keepsActive active session = true ↔
      (active.isRelayed = false ∧ session.isRelayed = true) ∨
        (active.isRelayed = session.isRelayed ∧ active.rank ≤ session.rank) := by
  have different : (active.rank.initiatorId == session.rank.initiatorId) = false :=
    beq_false_of_ne opposing
  simp only [Registry.keepsActive, different]
  rcases Bool.eq_false_or_eq_true active.isRelayed with first | first <;>
    rcases Bool.eq_false_or_eq_true session.isRelayed with second | second <;>
    simp [first, second]

/-- A held session survives the competing one exactly when it is the survivor. -/
theorem keeps_iff_survivor {pair : DialPair}
    (opposing : pair.initiator .first ≠ pair.initiator .second) (dial : Dial) :
    keeps pair dial dial.other = true ↔ dial = survivor pair := by
  have initiators := initiatorId_ne opposing .left
  have ranks : pair.rank .first ≠ pair.rank .second :=
    fun same => initiators (congrArg SessionRank.initiatorId same)
  unfold survivor keeps
  rcases Bool.eq_false_or_eq_true (pair.relayed .first) with first | first <;>
    rcases Bool.eq_false_or_eq_true (pair.relayed .second) with second | second <;>
    rcases ranks.lt_or_gt with less | greater <;>
    cases dial
  all_goals
    simp only [Dial.other, keepsActive_opposing initiators, keepsActive_opposing initiators.symm]
    simp only [DialPair.relayed, DialPair.rank] at *
    simp_all [le_of_lt, not_lt_of_gt, not_le_of_gt]

/-! ## One end -/

/-- What holds at an end that has registered the listed sessions, when `winner` survives. -/
structure Settling (winner : Dial) (view : End) (order : List Dial) : Prop where
  opened : view.opened winner = true
  held : winner ∈ order → view.held = some winner
  shut : winner ∈ order → winner.other ∈ order → view.opened winner.other = false
  /-- Before the winner comes, a registered loser is held or closed. -/
  waiting : winner.other ∈ order → winner ∉ order →
    view.held = some winner.other ∨ view.opened winner.other = false

variable {winner : Dial} {view : End} {order : List Dial}

theorem dial_cases (winner dial : Dial) : dial = winner ∨ dial = winner.other := by
  cases winner <;> cases dial <;> simp [Dial.other]

theorem other_ne (winner : Dial) : winner.other ≠ winner := by
  cases winner <;> simp [Dial.other]

variable {prefers : Dial → Dial → Bool}

/-- Registering either session keeps an end settling. -/
theorem Settling.register (wins : prefers winner winner.other = true)
    (loses : prefers winner.other winner = false) (settling : Settling winner view order)
    (dial : Dial) :
    Settling winner (view.register prefers dial) (order ++ [dial]) := by
  have distinct := other_ne winner
  obtain ⟨opened, held, shut, waiting⟩ := settling
  unfold End.register
  rcases dial_cases winner dial with rfl | rfl
  · cases current : view.held with
    | none =>
      constructor <;> simp_all
    | some incumbent =>
      rcases dial_cases dial incumbent with rfl | rfl
      · have closed : incumbent.other ∈ order → view.opened incumbent.other = false := by
          intro registered
          by_cases came : incumbent ∈ order
          · exact shut came registered
          · have := waiting registered came
            simp_all [distinct.symm]
        constructor <;> simp_all
      · constructor <;> simp_all [End.close, distinct.symm]
  · cases current : view.held with
    | none => constructor <;> simp_all [distinct.symm]
    | some incumbent =>
      rcases dial_cases winner incumbent with rfl | rfl
      · constructor <;> simp_all [End.close, distinct.symm]
      · constructor <;> simp_all [distinct.symm]

theorem Settling.close (settling : Settling winner view order) :
    Settling winner (view.close winner.other) order := by
  have distinct := other_ne winner
  obtain ⟨opened, held, shut, waiting⟩ := settling
  constructor <;> simp_all [End.close, distinct.symm]

theorem Settling.lookup (settling : Settling winner view order) :
    Settling winner view.lookup order := by
  have distinct := other_ne winner
  obtain ⟨opened, held, shut, waiting⟩ := settling
  unfold End.lookup
  cases current : view.held with
  | none => constructor <;> simp_all
  | some incumbent =>
    dsimp only
    split
    · constructor <;> simp_all
    · rcases dial_cases winner incumbent with rfl | rfl
      · simp_all
      · constructor <;> simp_all

/-! ## Both ends -/

theorem Settling.at {state : Ends} (settling : ∀ side, Settling winner (state.view side)
    (state.order side)) {side : Side} {after : End} (changed : Settling winner after
    (state.order side)) (other : Side) :
    Settling winner ((state.at side after).view other) ((state.at side after).order other) := by
  by_cases same : other = side
  · subst same
    simpa [Ends.at] using changed
  · simpa [Ends.at, same] using settling other

/-- Every action but a failure keeps both ends settling. -/
theorem Settling.step (wins : prefers winner winner.other = true)
    (loses : prefers winner.other winner = false) {state : Ends}
    (settling : ∀ side, Settling winner (state.view side) (state.order side)) (action : Action)
    (unbroken : ∀ side dial, action ≠ .fail side dial) (side : Side) :
    Settling winner ((state.step prefers action).view side)
      ((state.step prefers action).order side) := by
  cases action with
  | register here dial =>
    by_cases same : side = here
    · subst same
      simpa [Ends.step, Ends.at, Ends.note] using (settling side).register wins loses dial
    · simpa [Ends.step, Ends.at, Ends.note, same] using settling side
  | deliver here dial =>
    simp only [Ends.step]
    split
    · exact settling side
    · rename_i closed
      rcases dial_cases winner dial with rfl | rfl
      · exact absurd (settling here.other).opened closed
      · exact Settling.at settling (settling here).close side
  | lookup here => exact Settling.at settling (settling here).lookup side
  | fail here dial => exact absurd rfl (unbroken here dial)

theorem Settling.run (wins : prefers winner winner.other = true)
    (loses : prefers winner.other winner = false) (actions : List Action)
    (unbroken : ∀ side dial, .fail side dial ∉ actions) (side : Side) :
    Settling winner ((Run.exec (Ends.step prefers) Ends.initial actions).view side)
      ((Run.exec (Ends.step prefers) Ends.initial actions).order side) := by
  induction actions using List.reverseRecOn generalizing side with
  | nil => constructor <;> simp [Run.exec, Ends.initial]
  | append_singleton actions action ih =>
    rw [Run.exec_concat]
    refine Settling.step wins loses (ih ?_) action ?_ side
    · exact fun side dial member => unbroken side dial (List.mem_append_left _ member)
    · rintro side dial rfl
      exact unbroken side dial (by simp)

/-- Opposing dials converge: once both ends have registered both sessions, both registries hold the
survivor, it is open at both ends, and the other session is closed at both. The two ends may have
called `register_session` in any order and any number of times, looked the key up in between, and
learned of each other's closes at any time. -/
theorem opposing_dials_converge (pair : DialPair)
    (opposing : pair.initiator .first ≠ pair.initiator .second) (start : Side → Registry)
    (idle : ∀ side, Idle pair side (start side)) (actions : List Action)
    (unbroken : ∀ side dial, .fail side dial ∉ actions)
    (complete : ∀ side dial, dial ∈ (Run.exec (step pair) ⟨start, fun _ => []⟩ actions).order side)
    (side : Side) :
    Holds pair (Run.exec (step pair) ⟨start, fun _ => []⟩ actions) side (survivor pair) ∧
      IsOpen pair (Run.exec (step pair) ⟨start, fun _ => []⟩ actions) side (survivor pair) ∧
      ¬ IsOpen pair (Run.exec (step pair) ⟨start, fun _ => []⟩ actions) side
        (survivor pair).other := by
  have wins := (keeps_iff_survivor opposing (survivor pair)).mpr rfl
  have loses : keeps pair (survivor pair).other (survivor pair) = false := by
    have back : (survivor pair).other.other = survivor pair := by
      cases survivor pair <;> rfl
    have iff := keeps_iff_survivor opposing (survivor pair).other
    rw [back] at iff
    exact Bool.not_eq_true _ ▸ fun kept => other_ne _ (iff.mp kept)
  have settled := Settling.run wins loses actions unbroken side
  rw [← run_from_idle idle actions] at settled
  have clean : Tidy pair ⟨start, fun _ => []⟩ := fun side => (idle side).clean
  have tidy := (run_refines clean actions).1
  refine ⟨holds_of_held tidy (settled.held (complete side _)), settled.opened, ?_⟩
  have shut := settled.shut (complete side _) (complete side _)
  intro opened
  rw [show ((ends pair _).view side).opened (survivor pair).other = true from opened] at shut
  cases shut

/-- A direct dial from the left and a relayed one from the right. -/
def crossedPair : DialPair :=
  .sample (fun dial => if dial = .first then .left else .right) (fun dial => dial = .second)

/-- The right end registers the relayed session first, and sees the left end's close of it before it
registers the direct one. -/
def crossedActions : List Action :=
  [.register .right .second, .register .left .first, .register .left .second,
    .deliver .right .second, .register .right .first]

/-- The direct session survives at the end that registered it last. -/
theorem opposing_dials_converge_crossed :
    Holds crossedPair (Run.exec (step crossedPair) ⟨fun _ => .empty, fun _ => []⟩ crossedActions)
        .right (survivor crossedPair) ∧
      IsOpen crossedPair (Run.exec (step crossedPair) ⟨fun _ => .empty, fun _ => []⟩
        crossedActions) .right (survivor crossedPair) ∧
      ¬ IsOpen crossedPair (Run.exec (step crossedPair) ⟨fun _ => .empty, fun _ => []⟩
        crossedActions) .right (survivor crossedPair).other :=
  opposing_dials_converge crossedPair (by decide) _ (fun _ => idle_empty _ _) crossedActions
    (by intro side dial; cases side <;> cases dial <;> decide)
    (by intro side dial; cases side <;> cases dial <;> decide) .right

/-- The two dials with a process instance that both ends name. -/
def namedPair : DialPair :=
  { crossedPair with
    session := fun dial side => { crossedPair.session dial side with
      peerProcessInstanceId := some (Vector.replicate 16 1) }
    keyed := crossedPair.keyed
    ranked := crossedPair.ranked
    sameRank := crossedPair.sameRank
    sameRelay := crossedPair.sameRelay
    sameInstance := by intro side; rfl
    separate := crossedPair.separate }

/-- A session of an end with a process of its peer. -/
def sessionWith (side : Side) (process : UInt8) (connection : ConnectionId) : Session :=
  { Session.sample (DialPair.sampleId side.other) (DialPair.sampleId side) 0 .realtimeInput
      connection false with
    peerProcessInstanceId := some (Vector.replicate 16 process) }

/-- An end had a session with the process of the two dials, then one with another process of its
peer, whose connection has closed. -/
def retiredBefore (side : Side) : Registry :=
  let first := (Registry.empty.registerSession (sessionWith side 1 3)).2
  let second := (first.registerSession (sessionWith side 2 4)).2
  second.closeWith 4 .timedOut

/-- No live session is registered under the key and both dials are open. But the entry that is left
has retired the process of both, so `register_session` closes them as obsolete, and no session is
open in the end. -/
theorem opposing_dials_obsolete :
    namedPair.initiator .first ≠ namedPair.initiator .second ∧
    (∀ side, ((retiredBefore side).sessions (namedPair.key side)).bind (retiredBefore side).live =
      none) ∧
    (∀ side dial, (retiredBefore side).isOpen (namedPair.conn dial side) = true ∧
      (retiredBefore side).handles (namedPair.conn dial side) = true) ∧
    (∀ side dial, .fail side dial ∉ crossedActions) ∧
    (∀ side dial, dial ∈
      (Run.exec (step namedPair) ⟨retiredBefore, fun _ => []⟩ crossedActions).order side) ∧
    ∀ side dial, ¬ IsOpen namedPair
      (Run.exec (step namedPair) ⟨retiredBefore, fun _ => []⟩ crossedActions) side dial := by
  refine ⟨by decide, ?_, ?_, ?_, ?_, ?_⟩ <;> intro side
  · cases side <;> rfl
  all_goals
    intro dial
    try unfold IsOpen
    cases side <;> cases dial <;> decide

end ArcRelay.TwoParty
