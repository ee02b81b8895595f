import Mathlib

/-!
# Counting in windows

A counter that admits so many events in a window. A window begins with the first event
after the last one has passed, so windows do not overlap, and an interval as long as a
window meets two of them at most.
-/

/-- A window: when it began and how many events it has admitted. -/
structure Window where
  started : Nat
  count : Nat
deriving DecidableEq, Repr

namespace Window

variable (length limit : Nat)

/-- The window of an event: a new one if there is none or the last has passed. -/
def current (state : Option Window) (now : Nat) : Window :=
  match state with
  | none => ⟨now, 0⟩
  | some window => if now - window.started ≥ length then ⟨now, 0⟩ else window

/-- An event is admitted unless its window is full. -/
def allow (state : Option Window) (now : Nat) : Bool × Window :=
  let window := current length state now
  if window.count ≥ limit then (false, window) else (true, ⟨window.started, window.count + 1⟩)

/-- There is no window, or it has passed. -/
def Idle (now : Nat) (state : Option Window) : Prop :=
  ∀ window, state = some window → now - window.started ≥ length

/-- Two states that make no difference from that time on. -/
def Agree (now : Nat) (state other : Option Window) : Prop :=
  state = other ∨ (Idle length now state ∧ Idle length now other)

variable {length limit}

variable {state : Option Window}

/-- An event without a running window begins one. -/
theorem Idle.current {now : Nat} (idle : Idle length now state) :
    Window.current length state now = ⟨now, 0⟩ := by
  unfold Window.current
  cases state with
  | none => rfl
  | some window => exact if_pos (idle window rfl)

/-- A window that has passed stays so. -/
theorem Idle.later {now next : Nat} (idle : Idle length now state) (later : now ≤ next) :
    Idle length next state := by
  intro window same
  have passed := idle window same
  omega

/-- States that agree do so later. -/
theorem Agree.later {now next : Nat} {state other : Option Window}
    (agree : Agree length now state other) (later : now ≤ next) : Agree length next state other :=
  agree.imp id fun ⟨idle, idle'⟩ => ⟨idle.later later, idle'.later later⟩

/-- What agrees with a third agrees. -/
theorem Agree.trans {now : Nat} {other third : Option Window} (agree : Agree length now state other)
    (agree' : Agree length now other third) :
    Agree length now state third := by
  rcases agree with rfl | ⟨idle, idle'⟩
  · exact agree'
  · rcases agree' with rfl | ⟨-, idle''⟩
    · exact Or.inr ⟨idle, idle'⟩
    · exact Or.inr ⟨idle, idle''⟩

/-- States that agree decide an event alike, and are the same afterwards. -/
theorem Agree.allow {now : Nat} {other : Option Window} (agree : Agree length now state other) :
    Window.allow length limit state now = Window.allow length limit other now := by
  rcases agree with rfl | ⟨idle, idle'⟩
  · rfl
  · rw [Window.allow, Window.allow, idle.current, idle'.current]

/-! ## Events one after the other -/

/-- The state of the counter, and the admitted events with the beginning of their windows. -/
structure Tally where
  state : Option Window
  /-- Beginning and time of each admitted event. -/
  admitted : List (Nat × Nat)

/-- Nothing has happened. -/
def Tally.empty : Tally := ⟨none, []⟩

/-- One event. -/
def Tally.event (length limit : Nat) (tally : Tally) (now : Nat) : Tally where
  state := some (allow length limit tally.state now).2
  admitted :=
    if (allow length limit tally.state now).1 then
      tally.admitted ++ [((allow length limit tally.state now).2.started, now)]
    else tally.admitted

/-- How many admitted events belong to the window with that beginning. -/
def Tally.inWindow (tally : Tally) (started : Nat) : Nat :=
  tally.admitted.countP fun event => event.1 = started

/-- What is known of the admitted events after an event at that time. -/
structure Tally.Kept (length limit : Nat) (tally : Tally) (now : Nat) : Prop where
  /-- Every window has admitted so many at most. -/
  full : ∀ started, tally.inWindow started ≤ limit
  /-- An event lies in its window, and is past. -/
  inside : ∀ event ∈ tally.admitted, event.1 ≤ event.2 ∧ event.2 < event.1 + length ∧ event.2 ≤ now
  apart : ∀ event ∈ tally.admitted, ∀ other ∈ tally.admitted,
    event.1 < other.1 → event.1 + length ≤ other.1
  /-- There is no admitted event before the first window. -/
  fresh : tally.state = none → tally.admitted = []
  /-- The last window counts its events. -/
  counted : ∀ window, tally.state = some window → window.count = tally.inWindow window.started
  last : ∀ window, tally.state = some window → window.started ≤ now ∧
    ∀ event ∈ tally.admitted, event.1 = window.started ∨ event.1 + length ≤ window.started

section Tally

variable {tally : Tally} {now next : Nat}

/-- Nothing is known at the start. -/
theorem Tally.kept_empty (now : Nat) : Tally.empty.Kept length limit now := by
  refine ⟨?_, ?_, ?_, fun _ => rfl, ?_, ?_⟩ <;> simp [Tally.empty, Tally.inWindow]

/-- What is kept is kept as time passes. -/
theorem Tally.Kept.later (kept : tally.Kept length limit now) (later : now ≤ next) :
    tally.Kept length limit next :=
  { kept with
    inside := fun event member =>
      have ⟨began, inside, past⟩ := kept.inside event member
      ⟨began, inside, past.trans later⟩
    last := fun window same =>
      have ⟨began, others⟩ := kept.last window same
      ⟨began.trans later, others⟩ }

/-- How the window of the next event lies to the admitted ones, and what it has admitted. -/
structure Tally.Fits (length : Nat) (tally : Tally) (now : Nat) (window : Window) : Prop where
  inside : window.started ≤ now ∧ now < window.started + length
  counted : window.count = tally.inWindow window.started
  /-- Admitted events belong to it or to an earlier window. -/
  apart : ∀ event ∈ tally.admitted, event.1 = window.started ∨ event.1 + length ≤ window.started

/-- A new window fits behind windows that have passed. -/
theorem Tally.fits_new (positive : 0 < length)
    (passed : ∀ event ∈ tally.admitted, event.1 + length ≤ now) :
    tally.Fits length now ⟨now, 0⟩ := by
  refine ⟨⟨le_refl now, by simpa using positive⟩, Eq.symm (List.countP_eq_zero.mpr ?_),
    fun event member => Or.inr (passed event member)⟩
  intro event member same
  have before := passed event member
  have same : event.1 = now := of_decide_eq_true same
  omega

/-- The window of the next event fits. -/
theorem Tally.Kept.fits (kept : tally.Kept length limit now) (positive : 0 < length) :
    tally.Fits length now (current length tally.state now) := by
  cases state : tally.state with
  | none =>
    refine fits_new positive fun event member => ?_
    rw [kept.fresh state] at member
    cases member
  | some window =>
    obtain ⟨began, others⟩ := kept.last window state
    rw [current]
    split
    · rename_i passed
      refine fits_new positive fun event member => ?_
      rcases others event member with same | before <;> omega
    · exact ⟨⟨began, by omega⟩, kept.counted window state, others⟩

/-- One event keeps what is known. -/
theorem Tally.Kept.event (kept : tally.Kept length limit now) (positive : 0 < length) :
    (tally.event length limit now).Kept length limit now := by
  have fits := kept.fits positive
  unfold Tally.event allow
  generalize current length tally.state now = window at fits ⊢
  by_cases room : window.count ≥ limit
  · simp only [room, ↓reduceIte, Bool.false_eq_true]
    refine ⟨kept.full, kept.inside, kept.apart, nofun, ?_, ?_⟩
    · rintro _ ⟨⟩
      exact fits.counted
    · rintro _ ⟨⟩
      exact ⟨fits.inside.1, fits.apart⟩
  · simp only [room, ↓reduceIte]
    have more : ∀ started, (Tally.mk (some ⟨window.started, window.count + 1⟩)
        (tally.admitted ++ [(window.started, now)])).inWindow started =
          tally.inWindow started + if window.started = started then 1 else 0 := by
      intro started
      simp [Tally.inWindow, List.countP_append]
    have each : ∀ event ∈ tally.admitted ++ [(window.started, now)],
        event ∈ tally.admitted ∨ event = (window.started, now) := by
      simp
    refine ⟨fun started => ?_, fun event member => ?_, fun event member other member' before => ?_,
      nofun, ?_, ?_⟩
    · rw [more]
      have before := kept.full started
      split
      · rename_i same
        rw [← same, ← fits.counted] at before ⊢
        omega
      · exact before
    · rcases each event member with earlier | rfl
      · exact kept.inside event earlier
      · exact ⟨fits.inside.1, fits.inside.2, le_refl now⟩
    · rcases each event member with earlier | rfl <;> rcases each other member' with earlier' | rfl
      · exact kept.apart event earlier other earlier' before
      · exact (fits.apart event earlier).resolve_left before.ne
      · rcases fits.apart other earlier' with same | passed
        · exact absurd same.symm before.ne
        · exact absurd before (by dsimp only; omega)
      · exact absurd before (lt_irrefl _)
    · rintro _ ⟨⟩
      rw [more, if_pos rfl, ← fits.counted]
    · rintro _ ⟨⟩
      refine ⟨fits.inside.1, fun event member => ?_⟩
      rcases each event member with earlier | rfl
      · exact fits.apart event earlier
      · exact Or.inl rfl

/-- The admitted events of an interval as long as a window belong to two windows at most. -/
theorem Tally.Kept.two_windows (kept : tally.Kept length limit now) (begin' : Nat) :
    ∃ first second, ∀ event ∈ tally.admitted, begin' ≤ event.2 → event.2 < begin' + length →
      event.1 = first ∨ event.1 = second := by
  by_cases one : ∃ first, ∀ event ∈ tally.admitted, begin' ≤ event.2 →
      event.2 < begin' + length → event.1 = first
  · obtain ⟨first, only⟩ := one
    exact ⟨first, first, fun event member after before => Or.inl (only event member after before)⟩
  · push Not at one
    obtain ⟨event, member, after, before, -⟩ := one 0
    obtain ⟨other, member', after', before', different⟩ := one event.1
    refine ⟨event.1, other.1, fun third member'' after'' before'' => ?_⟩
    have inside := kept.inside event member
    have inside' := kept.inside other member'
    have inside'' := kept.inside third member''
    -- three windows, in whatever order, do not fit
    have first := kept.apart event member other member'
    have second := kept.apart other member' event member
    have third := kept.apart event member third member''
    have fourth := kept.apart _ member'' event member
    have fifth := kept.apart other member' _ member''
    have sixth := kept.apart _ member'' other member'
    omega

/-- What satisfies one of two conditions is counted by one of them. -/
theorem countP_or_le {α : Type} (first second : α → Bool) (list : List α) :
    list.countP (fun value => first value || second value) ≤
      list.countP first + list.countP second := by
  induction list with
  | nil => simp
  | cons value rest ih =>
    simp only [List.countP_cons]
    cases first value <;> cases second value <;> simp <;> omega

/-- No more than twice the limit of the admitted events lie in such an interval. -/
theorem Tally.Kept.interval (kept : tally.Kept length limit now) (begin' : Nat) :
    tally.admitted.countP (fun event => begin' ≤ event.2 ∧ event.2 < begin' + length) ≤
      2 * limit := by
  obtain ⟨first, second, only⟩ := kept.two_windows begin'
  calc tally.admitted.countP (fun event => begin' ≤ event.2 ∧ event.2 < begin' + length)
      ≤ tally.admitted.countP (fun event => event.1 = first || event.1 = second) := by
        refine List.countP_mono_left fun event member within => ?_
        obtain ⟨after, before⟩ := of_decide_eq_true within
        simpa using only event member after before
    _ ≤ tally.inWindow first + tally.inWindow second := countP_or_le _ _ _
    _ ≤ 2 * limit := by
        have full := kept.full first
        have full' := kept.full second
        omega

end Tally

end Window
