import Mathlib

/-!
# Computations that can fail

When a chain of fallible steps succeeds, every step has succeeded. These rules
take a successful result apart, step by step.
-/

namespace Except

variable {ε δ α β : Type}

/-- Fail if the condition holds. -/
def refuse (condition : Bool) (error : ε) : Except ε Unit :=
  if condition then .error error else .ok ()

/-- A check passes exactly if its condition does not hold. -/
theorem refuse_eq_ok {condition : Bool} {error : ε} {value : Unit} :
    refuse condition error = .ok value ↔ condition = false := by
  cases condition <;> simp [refuse]

variable {first : Except ε α}

/-- A chain succeeds when both steps do. -/
theorem bind_eq_ok {next : α → Except ε β} {result : β} :
    (first >>= next) = .ok result ↔ ∃ value, first = .ok value ∧ next value = .ok result := by
  cases first with
  | error error => simp [bind, Except.bind]
  | ok value => simp [bind, Except.bind]

/-- Returning succeeds with what is returned. -/
theorem pure_eq_ok {value result : α} :
    (pure value : Except ε α) = .ok result ↔ value = result := by
  simp [pure, Except.pure]

/-- Renaming errors does not make a computation succeed. -/
theorem mapError_eq_ok {rename : ε → δ} {result : α} :
    first.mapError rename = .ok result ↔ first = .ok result := by
  cases first <;> simp [Except.mapError]

/-- A mapped result comes from a result. -/
theorem map_eq_ok {f : α → β} {result : β} :
    first.map f = .ok result ↔ ∃ value, first = .ok value ∧ f value = result := by
  cases first <;> simp [Except.map]

variable {f : α → Except ε β}

/-- A list is mapped when each element is. -/
theorem mapM_eq_ok {values : List α} {results : List β} :
    values.mapM f = .ok results ↔ List.Forall₂ (fun value result => f value = .ok result) values
      results := by
  induction values generalizing results with
  | nil => cases results <;> simp [pure_eq_ok]
  | cons value values ih =>
    rw [List.mapM_cons, bind_eq_ok]
    constructor
    · rintro ⟨first, mapped, rest⟩
      obtain ⟨others, tail, same⟩ := bind_eq_ok.mp rest
      obtain rfl := pure_eq_ok.mp same
      exact .cons mapped (ih.mp tail)
    · intro related
      cases related with
      | cons mapped tail => exact ⟨_, mapped, bind_eq_ok.mpr ⟨_, ih.mpr tail, rfl⟩⟩

/-- An element of the mapped list is the image of one. -/
theorem mem_of_mapM {values : List α} {results : List β} (mapped : values.mapM f = .ok results)
    {result : β} :
    result ∈ results ↔ ∃ value ∈ values, f value = .ok result := by
  have related := mapM_eq_ok.mp mapped
  clear mapped
  induction related with
  | nil => simp
  | cons image rest ih => simp [ih, image, eq_comm]

/-- A list can be mapped if each element can. -/
theorem mapM_isOk {values : List α} (each : ∀ value ∈ values, ∃ result, f value = .ok result) :
    ∃ results, values.mapM f = .ok results := by
  induction values with
  | nil => exact ⟨[], rfl⟩
  | cons value values ih =>
    obtain ⟨result, mapped⟩ := each value (by simp)
    obtain ⟨results, rest⟩ := ih fun other member => each other (List.mem_cons_of_mem _ member)
    exact ⟨result :: results, mapM_eq_ok.mpr (.cons mapped (mapM_eq_ok.mp rest))⟩

end Except
