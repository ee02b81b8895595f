import Mathlib

/-!
# Sets of tasks that are joined as they end

A set of spawned tasks, each of which is still running or has ended with a result. Joining
takes one of those that have ended out of the set, in an order that is left open. The rules
say what is taken and what stays, so that nobody has to look into the choice.
-/

namespace List

variable {α : Type}

/-- The place of an element splits the list. -/
theorem split_of_getElem? {list : List α} {index : Nat} {element : α}
    (found : list[index]? = some element) :
    ∃ before after, list = before ++ element :: after ∧ before.length = index := by
  obtain ⟨inside, same⟩ := getElem?_eq_some_iff.mp found
  refine ⟨list.take index, list.drop (index + 1), ?_, by simp; omega⟩
  rw [← same, ← drop_eq_getElem_cons inside, take_append_drop]

/-- The element at a split is replaced. -/
theorem set_split (before after : List α) (element other : α) :
    (before ++ element :: after).set before.length other = before ++ other :: after := by
  simp

/-- The element at a split is changed. -/
theorem modify_split (before after : List α) (element : α) (change : α → α) :
    (before ++ element :: after).modify before.length change =
      before ++ change element :: after := by
  induction before with
  | nil => rfl
  | cons head later ih => exact congrArg (head :: ·) ih

/-- What is around an element is in the list. -/
theorem subset_of_split (before after : List α) (element : α) :
    before ++ after ⊆ before ++ element :: after :=
  ((List.Sublist.refl before).append (sublist_cons_self element after)).subset

/-- The first element of a kind splits the list. -/
theorem split_of_findIdx? {list : List α} {wanted : α → Bool} {index : Nat}
    (found : list.findIdx? wanted = some index) :
    ∃ before element after, list = before ++ element :: after ∧ before.length = index ∧
      wanted element = true ∧ ∀ other ∈ before, wanted other = false := by
  obtain ⟨inside, holds, first⟩ := findIdx?_eq_some_iff_getElem.mp found
  obtain ⟨before, after, same, length⟩ := split_of_getElem? (getElem?_eq_getElem inside)
  refine ⟨before, list[index], after, same, length, holds, fun other member => ?_⟩
  obtain ⟨place, bound, rfl⟩ := getElem_of_mem member
  have here : list[place]? = some before[place] := by
    rw [same, getElem?_append_left bound, getElem?_eq_getElem bound]
  obtain ⟨within, value⟩ := getElem?_eq_some_iff.mp here
  rw [← value]
  exact Bool.eq_false_iff.mpr (first place (by omega))

end List

namespace JoinSet

variable {κ ρ : Type}

/-- A spawned task. -/
structure Task (κ ρ : Type) where
  key : κ
  result : Option ρ

/-- The number of tasks that have ended. -/
def ended (tasks : List (Task κ ρ)) : Nat := tasks.countP fun task => task.result.isSome

/-- Take out the task with a given place among those that have ended. -/
def pick : Nat → List (Task κ ρ) → Option ((κ × ρ) × List (Task κ ρ))
  | _, [] => none
  | place, ⟨key, none⟩ :: later =>
    (pick place later).map fun picked => (picked.1, ⟨key, none⟩ :: picked.2)
  | 0, ⟨key, some result⟩ :: later => some ((key, result), later)
  | place + 1, ⟨key, some result⟩ :: later =>
    (pick place later).map fun picked => (picked.1, ⟨key, some result⟩ :: picked.2)

/-- Join one of the tasks that have ended. -/
def joinNext (choice : Nat) (tasks : List (Task κ ρ)) : Option ((κ × ρ) × List (Task κ ρ)) :=
  pick (choice % ended tasks) tasks

/-- The task at a place of the set ends. -/
def finish (tasks : List (Task κ ρ)) (index : Nat) (result : κ → ρ) : List (Task κ ρ) :=
  tasks.modify index fun task =>
    match task.result with
    | some _ => task
    | none => { task with result := some (result task.key) }

variable {tasks : List (Task κ ρ)}

/-- What is taken out was in the set, and nothing else is taken. -/
theorem pick_eq_some {place : Nat} {rest : List (Task κ ρ)} {key : κ} {result : ρ}
    (picked : pick place tasks = some ((key, result), rest)) :
    ∃ before after, tasks = before ++ ⟨key, some result⟩ :: after ∧ rest = before ++ after := by
  fun_induction pick place tasks generalizing rest with
  | case1 place => cases picked
  | case2 place other later ih =>
    obtain ⟨⟨found, others⟩, inner, same⟩ := Option.map_eq_some_iff.mp picked
    cases same
    obtain ⟨before, after, rfl, rfl⟩ := ih inner
    exact ⟨⟨other, none⟩ :: before, after, rfl, rfl⟩
  | case3 other value later =>
    cases picked
    exact ⟨[], later, rfl, rfl⟩
  | case4 place other value later ih =>
    obtain ⟨⟨found, others⟩, inner, same⟩ := Option.map_eq_some_iff.mp picked
    cases same
    obtain ⟨before, after, rfl, rfl⟩ := ih inner
    exact ⟨⟨other, some value⟩ :: before, after, rfl, rfl⟩

/-- There is something to take at every place below the number of tasks that have ended. -/
theorem isSome_pick {place : Nat} (inside : place < ended tasks) :
    (pick place tasks).isSome := by
  fun_induction pick place tasks with
  | case1 place => cases inside
  | case2 place other later ih =>
    rw [Option.isSome_map]
    exact ih (by simpa [ended] using inside)
  | case3 other value later => rfl
  | case4 place other value later ih =>
    rw [Option.isSome_map]
    exact ih (by simpa [ended] using inside)

/-- What is joined has ended, and nothing else is taken. -/
theorem joinNext_eq_some {choice : Nat} {rest : List (Task κ ρ)} {key : κ} {result : ρ}
    (joined : joinNext choice tasks = some ((key, result), rest)) :
    ∃ before after, tasks = before ++ ⟨key, some result⟩ :: after ∧ rest = before ++ after :=
  pick_eq_some joined

/-- Where a task has ended, one is joined. -/
theorem isSome_joinNext (choice : Nat) {task : Task κ ρ} (member : task ∈ tasks)
    (ends : task.result.isSome = true) :
    (joinNext choice tasks).isSome :=
  isSome_pick (Nat.mod_lt _ (List.countP_pos_iff.mpr ⟨task, member, ends⟩))

/-- Where none is joined, all are running. -/
theorem running_of_joinNext {choice : Nat} (nothing : joinNext choice tasks = none) :
    ∀ task ∈ tasks, task.result = none := by
  intro task member
  by_contra stopped
  have joined := isSome_joinNext choice member (Option.isSome_iff_ne_none.mpr stopped)
  rw [nothing] at joined
  cases joined

/-- The task that ends has its result; the others stay as they are. -/
theorem finish_split (before after : List (Task κ ρ)) (key : κ) (result : κ → ρ) :
    finish (before ++ ⟨key, none⟩ :: after) before.length result =
      before ++ ⟨key, some (result key)⟩ :: after :=
  List.modify_split before after ⟨key, none⟩ _

end JoinSet
