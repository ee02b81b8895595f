import ArcRelay.Verif.TwoParty

/-!
# Sessions of one initiator

A session of the same initiator replaces the registered one, whichever of the
two was dialled later: the last registered session wins at each end. Two
overlapping sessions of one initiator therefore leave a session that is
registered and open at both ends exactly when both ends registered them in the
same order. The dial gate orders the registrations of the dialling end; nothing
orders those of the accepting end, whose handshakes run in tasks of their own,
and a relayed dial takes no gate.
-/

namespace ArcRelay.TwoParty

open Sides (Side)

/-- How two sessions of one initiator come to overlap. -/
inductive Overlap where
  /-- Both went through the dial gate: the second was dialled after the first had been registered
  and was found closed. -/
  | redial
  /-- At least one came through `connect_input_relay`, which takes no gate. -/
  | relay
deriving DecidableEq, Repr

/-- The sessions of a pair can overlap in this way. -/
def Overlap.Fits (overlap : Overlap) (pair : DialPair) : Prop :=
  overlap = .relay →
    pair.kind = .realtimeInput ∧ (pair.relayed .first = true ∨ pair.relayed .second = true)

/-- What the code permits next. Each end registers each session once; behind the gate, the second
session exists only once the dialling end has registered the first and seen it closed, and the first
may fail at any time. -/
def Permitted (pair : DialPair) (overlap : Overlap) (state : State) : Action → Prop
  | .register side dial =>
    dial ∉ state.order side ∧ (overlap = .redial → dial = .second →
      .first ∈ state.order (pair.initiator .first) ∧
        ¬ IsOpen pair state (pair.initiator .first) .first)
  | .fail _ dial => overlap = .redial ∧ dial = .first
  | .deliver _ _ | .lookup _ => True

/-- Whether an action is permitted can be computed. -/
instance (pair : DialPair) (overlap : Overlap) (state : State) (action : Action) :
    Decidable (Permitted pair overlap state action) :=
  match action with
  | .register side dial =>
    inferInstanceAs (Decidable (dial ∉ state.order side ∧ (overlap = .redial → dial = .second →
      .first ∈ state.order (pair.initiator .first) ∧
        ¬ (state.registry (pair.initiator .first)).isOpen
          (pair.conn .first (pair.initiator .first)) = true)))
  | .fail _ dial => inferInstanceAs (Decidable (overlap = .redial ∧ dial = .first))
  | .deliver _ _ => isTrue trivial
  | .lookup _ => isTrue trivial

theorem keeps_same_initiator {pair : DialPair}
    (same : pair.initiator .first = pair.initiator .second) (current incoming : Dial) :
    keeps pair current incoming = false := by
  have initiators : (pair.session current .left).rank.initiatorId =
      (pair.session incoming .left).rank.initiatorId := by
    rw [pair.ranked, pair.ranked]
    cases current <;> cases incoming <;> simp [same]
  simp [keeps, Registry.keepsActive, initiators]

/-! ## One end -/

/-- What one end shows after it has registered the listed sessions: an earlier session is closed,
and the latest is held unless a lookup found it closed. -/
inductive Replacing (view : End) : List Dial → Prop
  | none (held : view.held = .none) : Replacing view []
  | one (latest : Dial)
    (held : view.held = some latest ∨ view.held = .none ∧ view.opened latest = false) :
    Replacing view [latest]
  | both (earlier latest : Dial) (different : earlier ≠ latest)
    (shut : view.opened earlier = false)
    (held : view.held = some latest ∨ view.held = .none ∧ view.opened latest = false) :
    Replacing view [earlier, latest]

variable {view : End} {order : List Dial}

/-- Only the earlier of two registered sessions is closed by a registration. -/
theorem Replacing.register (replacing : Replacing view order) (dial : Dial) (fresh : dial ∉ order) :
    Replacing (view.register (fun _ _ => false) dial) (order ++ [dial]) ∧
      ∀ other, (view.register (fun _ _ => false) dial).opened other = false →
        view.opened other = false ∨ order ++ [dial] = [other, dial] := by
  cases replacing with
  | none held =>
    refine ⟨.one dial (by simp [End.register, held]), fun other closed => Or.inl ?_⟩
    simpa [End.register, held] using closed
  | one latest held =>
    have different : latest ≠ dial := by simpa [eq_comm] using fresh
    rcases held with held | ⟨held, shut⟩
    · refine ⟨.both latest dial different ?_ ?_, fun other closed => ?_⟩
      · simp [End.register, held, different, End.close]
      · simp [End.register, held, different]
      · by_cases same : other = latest
        · exact Or.inr (by simp [same])
        · exact Or.inl (by simpa [End.register, held, different, End.close, same] using closed)
    · refine ⟨.both latest dial different ?_ ?_, fun other closed => Or.inl ?_⟩
      · simp [End.register, held, shut]
      · simp [End.register, held]
      · simpa [End.register, held] using closed
  | both earlier latest different shut held =>
    have known : dial = earlier ∨ dial = latest := by
      cases dial <;> cases earlier <;> cases latest <;> simp_all
    simp only [List.mem_cons, List.not_mem_nil, or_false] at fresh
    exact absurd known fresh

theorem Replacing.close (replacing : Replacing view order) (dial : Dial) :
    Replacing (view.close dial) order := by
  have closes : ∀ other, view.opened other = false → (view.close dial).opened other = false := by
    intro other shut
    by_cases same : other = dial <;> simp [End.close, same, shut]
  cases replacing with
  | none held => exact .none held
  | one latest held => exact .one latest (held.imp id fun gone => ⟨gone.1, closes _ gone.2⟩)
  | both earlier latest different shut held =>
    exact .both earlier latest different (closes _ shut)
      (held.imp id fun gone => ⟨gone.1, closes _ gone.2⟩)

theorem lookup_opened (view : End) : view.lookup.opened = view.opened := by
  unfold End.lookup
  split
  · rfl
  · split <;> rfl

/-- A lookup drops the latest session only if it is closed. -/
theorem Replacing.lookup (replacing : Replacing view order) : Replacing view.lookup order := by
  have latestHeld : ∀ latest,
      (view.held = some latest ∨ view.held = .none ∧ view.opened latest = false) →
      (view.lookup.held = some latest ∨
        view.lookup.held = .none ∧ view.lookup.opened latest = false) := by
    rintro latest (held | ⟨held, shut⟩)
    · cases opened : view.opened latest <;> simp [End.lookup, held, opened]
    · exact Or.inr (by simp [End.lookup, held, shut])
  cases replacing with
  | none held => exact .none (by simp [End.lookup, held])
  | one latest held => exact .one latest (latestHeld latest held)
  | both earlier latest different shut held =>
    exact .both earlier latest different (by rw [lookup_opened]; exact shut)
      (latestHeld latest held)

/-! ## Both ends -/

/-- What holds at both ends along a permitted run. -/
structure Progress (overlap : Overlap) (dialler : Side) (state : Ends) : Prop where
  shape : ∀ side, Replacing (state.view side) (state.order side)
  /-- A closed session was replaced at one of the ends, or is the first of a redial. -/
  cause : ∀ side dial, (state.view side).opened dial = false →
    (∃ end_ latest, state.order end_ = [dial, latest]) ∨ (overlap = .redial ∧ dial = .first)
  /-- Behind the gate the second session comes after the first at the dialling end. -/
  gate : overlap = .redial → ∀ side, .second ∈ state.order side → .first ∈ state.order dialler
  /-- Behind the gate the dialling end never registers the first session last. -/
  ordered : overlap = .redial → state.order dialler ≠ [.second, .first]

variable {overlap : Overlap} {dialler : Side} {state : Ends}

/-- An end that only loses connections whose close is accounted for keeps the progress. -/
theorem Progress.at (progress : Progress overlap dialler state) {side : Side} {after : End}
    (shape : Replacing after (state.order side))
    (cause : ∀ dial, after.opened dial = false →
      (∃ end_ latest, state.order end_ = [dial, latest]) ∨ (overlap = .redial ∧ dial = .first)) :
    Progress overlap dialler (state.at side after) where
  shape := by
    intro other
    by_cases same : other = side
    · subst same
      simpa [Ends.at] using shape
    · simpa [Ends.at, same] using progress.shape other
  cause := by
    intro other dial closed
    by_cases same : other = side
    · subst same
      exact cause dial (by simpa [Ends.at] using closed)
    · exact progress.cause other dial (by simpa [Ends.at, same] using closed)
  gate := progress.gate
  ordered := progress.ordered

/-- A registration permitted by the gate keeps the progress. -/
theorem Progress.register (progress : Progress overlap dialler state) (side : Side) (dial : Dial)
    (fresh : dial ∉ state.order side)
    (gated : overlap = .redial → dial = .second → .first ∈ state.order dialler) :
    Progress overlap dialler (state.step (fun _ _ => false) (.register side dial)) := by
  obtain ⟨shape, closes⟩ := (progress.shape side).register dial fresh
  have grows : ∀ other dial', dial' ∈ state.order other →
      dial' ∈ (state.step (fun _ _ => false) (.register side dial)).order other := by
    intro other dial' member
    by_cases same : other = side
    · subst same
      simp [Ends.step, Ends.note, member]
    · simpa [Ends.step, Ends.note, Ends.at, same] using member
  have keeps : ∀ end_ earlier latest, state.order end_ = [earlier, latest] →
      (state.step (fun _ _ => false) (.register side dial)).order end_ = [earlier, latest] := by
    intro end_ earlier latest full
    by_cases same : end_ = side
    · subst same
      have shape := progress.shape end_
      rw [full] at shape fresh
      cases shape with
      | both _ _ different _ _ =>
        cases dial <;> cases earlier <;> cases latest <;> simp_all
    · simpa [Ends.step, Ends.note, Ends.at, same] using full
  constructor
  · intro other
    by_cases same : other = side
    · subst same
      simpa [Ends.step, Ends.note, Ends.at] using shape
    · simpa [Ends.step, Ends.note, Ends.at, same] using progress.shape other
  · intro other closed shut
    have earlier : ∀ other', (state.view other').opened closed = false →
        (∃ end_ latest, (state.step (fun _ _ => false) (.register side dial)).order end_ =
          [closed, latest]) ∨ (overlap = .redial ∧ closed = .first) := by
      intro other' before
      refine (progress.cause other' closed before).imp ?_ id
      rintro ⟨end_, latest, full⟩
      exact ⟨end_, latest, keeps end_ closed latest full⟩
    by_cases same : other = side
    · subst same
      rcases closes closed (by simpa [Ends.step, Ends.note, Ends.at] using shut) with
        before | replaced
      · exact earlier other before
      · exact Or.inl ⟨other, dial, by simpa [Ends.step, Ends.note] using replaced⟩
    · exact earlier other (by simpa [Ends.step, Ends.note, Ends.at, same] using shut)
  · intro redial other second
    refine grows dialler .first ?_
    by_cases same : other = side
    · subst same
      rcases List.mem_append.mp
        (show .second ∈ state.order other ++ [dial] by simpa [Ends.step, Ends.note] using second)
        with before | now
      · exact progress.gate redial other before
      · exact gated redial (List.mem_singleton.mp now).symm
    · exact progress.gate redial other (by simpa [Ends.step, Ends.note, Ends.at, same] using second)
  · intro redial reversed
    by_cases same : dialler = side
    · subst same
      have split : state.order dialler ++ [dial] = [.second] ++ [.first] := by
        simpa [Ends.step, Ends.note] using reversed
      obtain ⟨before, now⟩ := List.append_inj' split rfl
      have first := progress.gate redial dialler (by simp [before])
      simp [before] at first
    · exact progress.ordered redial (by simpa [Ends.step, Ends.note, Ends.at, same] using reversed)

/-- Every permitted action keeps the progress. -/
theorem Progress.step {pair : DialPair} {state : State}
    (progress : Progress overlap (pair.initiator .first) (ends pair state)) (action : Action)
    (permitted : Permitted pair overlap state action) :
    Progress overlap (pair.initiator .first)
      ((ends pair state).step (fun _ _ => false) action) := by
  cases action with
  | register side dial =>
    exact progress.register side dial permitted.1
      (fun redial second => (permitted.2 redial second).1)
  | deliver side dial =>
    simp only [Ends.step]
    split
    · exact progress
    · rename_i shut
      refine progress.at ((progress.shape side).close dial) (fun other closed => ?_)
      by_cases same : other = dial
      · subst same
        exact progress.cause side.other other (by simpa using shut)
      · exact progress.cause side other (by simpa [End.close, same] using closed)
  | lookup side =>
    refine progress.at (progress.shape side).lookup (fun other closed => ?_)
    rw [lookup_opened] at closed
    exact progress.cause side other closed
  | fail side dial =>
    refine progress.at ((progress.shape side).close dial) (fun other closed => ?_)
    by_cases same : other = dial
    · exact Or.inr (same ▸ permitted)
    · exact progress.cause side other (by simpa [End.close, same] using closed)

/-- Progress holds at the end of every permitted run from idle registries. -/
theorem progress_run {pair : DialPair} (same : pair.initiator .first = pair.initiator .second)
    {start : Side → Registry} (idle : ∀ side, Idle pair side (start side)) {actions : List Action}
    (permitted : Run.Along (TwoParty.step pair) ⟨start, fun _ => []⟩ (Permitted pair overlap)
      actions) :
    Tidy pair (Run.exec (TwoParty.step pair) ⟨start, fun _ => []⟩ actions) ∧
      Progress overlap (pair.initiator .first)
        (ends pair (Run.exec (TwoParty.step pair) ⟨start, fun _ => []⟩ actions)) := by
  have arbitration : keeps pair = fun _ _ => false := by
    funext current incoming
    exact keeps_same_initiator same current incoming
  have initial : ends pair ⟨start, fun _ => []⟩ = Ends.initial := by
    simp only [ends, Ends.initial, (idle _).view_eq]
  have throughout : Run.Throughout (TwoParty.step pair) ⟨start, fun _ => []⟩
      (fun state => Tidy pair state ∧
        Progress overlap (pair.initiator .first) (ends pair state)) actions := by
    refine Run.invariant ?_ ?_ permitted
    · refine ⟨fun side => (idle side).clean, ?_⟩
      rw [initial]
      constructor <;> simp [Ends.initial, Replacing.none]
    · rintro state action ⟨tidy, progress⟩ allowed
      obtain ⟨tidy', refined⟩ := step_refines tidy action
      rw [refined, arbitration]
      exact ⟨tidy', progress.step action allowed⟩
  exact throughout.last

/-- An end that has registered both sessions has registered one before the other. -/
theorem Replacing.both_of_mem (replacing : Replacing view order) (complete : ∀ dial, dial ∈ order) :
    ∃ earlier latest, order = [earlier, latest] ∧ earlier ≠ latest ∧
      view.opened earlier = false ∧ (view.held = some latest ∨ view.opened latest = false) := by
  cases replacing with
  | none held => exact absurd (complete .first) (by simp)
  | one latest held =>
    have first := List.mem_singleton.mp (complete .first)
    have second := List.mem_singleton.mp (complete .second)
    rw [← first] at second
    cases second
  | both earlier latest different shut held =>
    exact ⟨earlier, latest, rfl, different, shut, held.imp id And.right⟩

/-- Two overlapping sessions of one initiator, registered by both ends, leave a session that is
registered and open at both ends exactly when both ends registered them in the same order. -/
theorem same_initiator_survives_iff (pair : DialPair)
    (same : pair.initiator .first = pair.initiator .second) (overlap : Overlap)
    (start : Side → Registry) (idle : ∀ side, Idle pair side (start side)) (actions : List Action)
    (permitted : Run.Along (step pair) ⟨start, fun _ => []⟩ (Permitted pair overlap) actions)
    (complete : ∀ side dial,
      dial ∈ (Run.exec (step pair) ⟨start, fun _ => []⟩ actions).order side) :
    (∃ dial, ∀ side,
      Holds pair (Run.exec (step pair) ⟨start, fun _ => []⟩ actions) side dial ∧
        IsOpen pair (Run.exec (step pair) ⟨start, fun _ => []⟩ actions) side dial) ↔
      (Run.exec (step pair) ⟨start, fun _ => []⟩ actions).order .left =
        (Run.exec (step pair) ⟨start, fun _ => []⟩ actions).order .right := by
  obtain ⟨tidy, progress⟩ := progress_run same idle permitted
  generalize Run.exec (step pair) ⟨start, fun _ => []⟩ actions = final at *
  obtain ⟨earlier, latest, left, different, shutLeft, -⟩ :=
    (progress.shape .left).both_of_mem (complete .left)
  obtain ⟨earlier', latest', right, different', shutRight, -⟩ :=
    (progress.shape .right).both_of_mem (complete .right)
  change final.order .left = _ at left
  change final.order .right = _ at right
  constructor
  · -- The survivor is not the earlier session of either end, so it is the latest of both.
    rintro ⟨dial, survives⟩
    have openLeft : ((ends pair final).view .left).opened dial = true := (survives .left).2
    have openRight : ((ends pair final).view .right).opened dial = true := (survives .right).2
    have lateLeft : dial ≠ earlier := by
      rintro rfl
      simp [openLeft] at shutLeft
    have lateRight : dial ≠ earlier' := by
      rintro rfl
      simp [openRight] at shutRight
    rw [left, right]
    cases dial <;> cases earlier <;> cases latest <;> cases earlier' <;> cases latest' <;> simp_all
  · intro sameOrder
    have orders : ∀ side, final.order side = [earlier, latest] := by
      intro side
      cases side with
      | left => exact left
      | right => exact sameOrder ▸ left
    have opened : ∀ side, ((ends pair final).view side).opened latest = true := by
      intro side
      by_contra closed
      rcases progress.cause side latest (by simpa using closed) with
        ⟨end_, after, replaced⟩ | ⟨redial, first⟩
      · have replaced' : [earlier, latest] = [latest, after] := (orders end_).symm.trans replaced
        exact different (List.cons.inj replaced').1
      · refine progress.ordered redial ?_
        change final.order _ = _
        rw [orders, first]
        cases earlier
        · exact absurd first.symm different
        · rfl
    refine ⟨latest, fun side => ⟨holds_of_held tidy ?_, opened side⟩⟩
    obtain ⟨before, last, order, -, -, held⟩ := (progress.shape side).both_of_mem (complete side)
    obtain ⟨-, rfl⟩ : earlier = before ∧ latest = last := by
      simpa using (orders side).symm.trans order
    rcases held with held | closed
    · exact held
    · rw [opened side] at closed
      cases closed

/-- Two sessions the left end dialled, the second of them over a relay if `relayed`. -/
def repeatedPair (relayed : Bool) : DialPair :=
  .sample (fun _ => .left) (fun dial => relayed && dial = .second)

/-- The left end redials after the first session failed; the right end registers in dial order. -/
def promptActions : List Action :=
  [.register .left .first, .register .right .first, .fail .left .first, .lookup .left,
    .register .left .second, .deliver .right .first, .register .right .second]

/-- A redial whose registrations arrive in dial order leaves the second session at both ends. -/
theorem same_initiator_survives_prompt :
    (∃ dial, ∀ side,
      Holds (repeatedPair false) (Run.exec (step (repeatedPair false))
        ⟨fun _ => .empty, fun _ => []⟩ promptActions) side dial ∧
      IsOpen (repeatedPair false) (Run.exec (step (repeatedPair false))
        ⟨fun _ => .empty, fun _ => []⟩ promptActions) side dial) ↔
      (Run.exec (step (repeatedPair false)) ⟨fun _ => .empty, fun _ => []⟩ promptActions).order
          .left =
        (Run.exec (step (repeatedPair false)) ⟨fun _ => .empty, fun _ => []⟩ promptActions).order
          .right :=
  same_initiator_survives_iff (repeatedPair false) rfl .redial _ (fun _ => idle_empty _ _)
    promptActions
    (by simp only [promptActions, Run.along_cons, Run.along_nil, and_true]; decide)
    (by intro side dial; cases side <;> cases dial <;> decide)

/-- The left end redials, and the right end's task for the first session registers last. -/
def delayedActions : List Action :=
  [.register .left .first, .fail .left .first, .lookup .left, .register .left .second,
    .register .right .second, .register .right .first]

/-- A relayed dial overlaps a direct one, and the two ends register them in opposite orders. -/
def crossingActions : List Action :=
  [.register .left .first, .register .right .second, .register .left .second,
    .register .right .first]

/-- A permitted run in which both ends register both sessions and no session is left registered and
open at both ends. -/
def Kills (pair : DialPair) (overlap : Overlap) (actions : List Action) : Prop :=
  overlap.Fits pair ∧
    Run.Along (step pair) ⟨fun _ => .empty, fun _ => []⟩ (Permitted pair overlap) actions ∧
    (∀ side dial, dial ∈ (Run.exec (step pair) ⟨fun _ => .empty, fun _ => []⟩ actions).order side) ∧
    ¬ ∃ dial, ∀ side,
      Holds pair (Run.exec (step pair) ⟨fun _ => .empty, fun _ => []⟩ actions) side dial ∧
        IsOpen pair (Run.exec (step pair) ⟨fun _ => .empty, fun _ => []⟩ actions) side dial

/-- A late registration behind the gate kills the redialled session, and registrations that cross
around a relayed dial kill both. -/
theorem same_initiator_sessions_killed :
    Kills (repeatedPair false) .redial delayedActions ∧
      Kills (repeatedPair true) .relay crossingActions := by
  constructor
  · refine ⟨fun relay => (by cases relay), ?_, ?_, ?_⟩
    · simp only [delayedActions, Run.along_cons, Run.along_nil, and_true]
      decide
    · intro side dial
      cases side <;> cases dial <;> decide
    · rintro ⟨dial, survives⟩
      have openLeft := (survives .left).2
      have openRight := (survives .right).2
      unfold IsOpen at openLeft openRight
      revert openLeft openRight
      cases dial <;> decide
  · refine ⟨fun _ => by decide, ?_, ?_, ?_⟩
    · simp only [crossingActions, Run.along_cons, Run.along_nil, and_true]
      decide
    · intro side dial
      cases side <;> cases dial <;> decide
    · rintro ⟨dial, survives⟩
      have openLeft := (survives .left).2
      have openRight := (survives .right).2
      unfold IsOpen at openLeft openRight
      revert openLeft openRight
      cases dial <;> decide

end ArcRelay.TwoParty
