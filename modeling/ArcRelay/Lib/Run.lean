import Mathlib

/-!
# Runs of a step function

A run applies a step function to a start state, input by input. The rules here
are about the states a run passes through: an invariant that every admissible
step keeps holds at the end of every admissible run, and where an inadmissible
step always breaks a property, admissibility of the steps is the exact condition
for the property to hold throughout.
-/

/-- An element of a list to which one was added is an earlier one or that one. -/
theorem List.mem_concat_iff {α : Type*} {list : List α} {element last : α} :
    element ∈ list ++ [last] ↔ element ∈ list ∨ element = last := by
  rw [List.mem_append, List.mem_singleton]

namespace Run

variable {State Input : Type} (step : State → Input → State) (start : State)

/-- The state after a list of inputs. -/
def exec (inputs : List Input) : State := inputs.foldl step start

/-- A run without inputs ends where it starts. -/
@[simp] theorem exec_nil : exec step start [] = start := rfl

/-- The last input acts on the state the earlier ones reach. -/
@[simp] theorem exec_concat (inputs : List Input) (input : Input) :
    exec step start (inputs ++ [input]) = step (exec step start inputs) input := by
  simp [exec]

/-- A run continues from the state its first part reaches. -/
theorem exec_append (first second : List Input) :
    exec step start (first ++ second) = exec step (exec step start first) second := by
  simp [exec]

/-- Every step of the run meets a condition on its input and the state before it. -/
def Along (condition : State → Input → Prop) (inputs : List Input) : Prop :=
  ∀ done input, done ++ [input] <+: inputs → condition (exec step start done) input

/-- Every state the run passes through has a property. -/
def Throughout (property : State → Prop) (inputs : List Input) : Prop :=
  ∀ done, done <+: inputs → property (exec step start done)

variable {step start} {condition : State → Input → Prop} {property : State → Prop}

/-- The empty run takes no step. -/
@[simp] theorem along_nil : Along step start condition [] := by
  intro done input isPrefix
  simp at isPrefix

/-- A run meets a condition when its last step and all earlier ones do. -/
theorem along_concat (inputs : List Input) (input : Input) :
    Along step start condition (inputs ++ [input]) ↔
      Along step start condition inputs ∧ condition (exec step start inputs) input := by
  constructor
  · intro along
    exact ⟨fun done next isPrefix => along done next (isPrefix.trans (List.prefix_append _ _)),
      along inputs input (List.prefix_refl _)⟩
  · rintro ⟨earlier, last⟩ done next isPrefix
    rcases List.prefix_concat_iff.mp isPrefix with same | shorter
    · obtain ⟨rfl, rfl⟩ := List.concat_inj.mp (by simpa using same)
      exact last
    · exact earlier done next shorter

/-- A run meets a condition when its first step does and the rest does from there. -/
theorem along_cons (input : Input) (inputs : List Input) :
    Along step start condition (input :: inputs) ↔
      condition start input ∧ Along step (step start input) condition inputs := by
  constructor
  · intro along
    refine ⟨along [] input (by simp), fun done next isPrefix => ?_⟩
    exact along (input :: done) next (List.prefix_cons_inj input |>.mpr isPrefix)
  · rintro ⟨first, rest⟩ done next isPrefix
    cases done with
    | nil =>
      obtain ⟨rfl, -⟩ := List.cons_prefix_cons.mp isPrefix
      exact first
    | cons head done =>
      obtain ⟨rfl, shorter⟩ := List.cons_prefix_cons.mp isPrefix
      exact rest done next shorter

/-- Whether a run meets a decidable condition is decided by going through it. -/
instance decidableAlong [∀ state input, Decidable (condition state input)] :
    ∀ start inputs, Decidable (Along step start condition inputs)
  | _, [] => .isTrue along_nil
  | start, input :: inputs =>
    have := decidableAlong (step start input) inputs
    decidable_of_iff' _ (along_cons input inputs)

/-- The states of an empty run. -/
theorem throughout_nil : Throughout step start property [] ↔ property start := by
  constructor
  · intro every
    exact every [] (List.prefix_refl _)
  · intro base done isPrefix
    obtain rfl := List.prefix_nil.mp isPrefix
    exact base

/-- The states of a run are those of its first part and the last one. -/
theorem throughout_concat (inputs : List Input) (input : Input) :
    Throughout step start property (inputs ++ [input]) ↔
      Throughout step start property inputs ∧ property (exec step start (inputs ++ [input])) := by
  constructor
  · intro every
    exact ⟨fun done isPrefix => every done (isPrefix.trans (List.prefix_append _ _)),
      every _ (List.prefix_refl _)⟩
  · rintro ⟨earlier, last⟩ done isPrefix
    rcases List.prefix_concat_iff.mp isPrefix with rfl | shorter
    · exact last
    · exact earlier done shorter

/-- The last state of a run is one it passes through. -/
theorem Throughout.last {inputs : List Input} (every : Throughout step start property inputs) :
    property (exec step start inputs) :=
  every inputs (List.prefix_refl _)

/-- An invariant kept by every admissible step holds throughout every admissible run. -/
theorem invariant (base : property start)
    (keeps : ∀ state input, property state → condition state input → property (step state input))
    {inputs : List Input} (admissible : Along step start condition inputs) :
    Throughout step start property inputs := by
  induction inputs using List.reverseRecOn with
  | nil => exact throughout_nil.mpr base
  | append_singleton inputs input ih =>
    obtain ⟨earlier, last⟩ := (along_concat inputs input).mp admissible
    have before := ih earlier
    refine (throughout_concat inputs input).mpr ⟨before, ?_⟩
    rw [exec_concat]
    exact keeps _ _ before.last last

/-- An invariant kept by every step holds throughout every run. -/
theorem invariant_always (base : property start)
    (keeps : ∀ state input, property state → property (step state input)) (inputs : List Input) :
    Throughout step start property inputs := by
  have admissible : Along step start (fun _ _ => True) inputs := fun _ _ _ => trivial
  exact invariant base (fun state input holds _ => keeps state input holds) admissible

/-- Where admissible steps keep a property and inadmissible ones break it, the property holds
throughout exactly the admissible runs. The second invariant is what both arguments may use. -/
theorem throughout_iff_along {background : State → Prop} (base : property start)
    (backgroundBase : background start)
    (backgroundKeeps : ∀ state input, background state → background (step state input))
    (keeps : ∀ state input, background state → property state → condition state input →
      property (step state input))
    (breaks : ∀ state input, background state → property state → property (step state input) →
      condition state input) (inputs : List Input) :
    Throughout step start property inputs ↔ Along step start condition inputs := by
  have known : ∀ inputs, background (exec step start inputs) := fun inputs =>
    (invariant_always backgroundBase backgroundKeeps inputs).last
  induction inputs using List.reverseRecOn with
  | nil => simp [throughout_nil, base]
  | append_singleton inputs input ih =>
    rw [throughout_concat, along_concat, exec_concat]
    constructor
    · rintro ⟨earlier, last⟩
      exact ⟨ih.mp earlier, breaks _ _ (known inputs) earlier.last last⟩
    · rintro ⟨admissible, last⟩
      have earlier := ih.mpr admissible
      exact ⟨earlier, keeps _ _ (known inputs) earlier.last last⟩

/-- Where a step keeps a property exactly when it is admissible, the property holds throughout
exactly the admissible runs. -/
theorem throughout_iff (base : property start)
    (steps : ∀ state input, property state → (property (step state input) ↔ condition state input))
    (inputs : List Input) :
    Throughout step start property inputs ↔ Along step start condition inputs := by
  have always : ∀ state input, (fun _ : State => True) state →
      (fun _ : State => True) (step state input) := fun _ _ known => known
  exact throughout_iff_along base trivial always
    (fun state input _ holds => (steps state input holds).mpr)
    (fun state input _ holds => (steps state input holds).mp) inputs

end Run
