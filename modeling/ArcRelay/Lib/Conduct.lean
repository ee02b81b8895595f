import ArcRelay.Lib.Pool

/-!
# Conduct of concurrent operations

What every operation guarantees of its calls, given the calls it has made so far,
holds of every call in the history of a pool, however the operations interleave.
An invariant of the shared world then has to be kept by calls with that guarantee
only.
-/

namespace System

variable {Call : Type} {Reply : Call → Type} {α World Operation Event : Type}
  (system : System Reply α World Operation Event)

/-- The call an input makes, with its reply. -/
def made (pool : Pool Reply α World Operation) (input : Pool.Input Reply Operation Event) :
    Option (Program.Moment World Reply) :=
  match input with
  | .resume index proposal =>
    match pool.jobs[index]? with
    | some job =>
      match job.rest with
      | .await request _ =>
        (system.handle pool.world request (proposal request)).map fun answer =>
          ⟨pool.world, request, answer.1⟩
      | .done _ => none
    | none => none
  | _ => none

/-- The call an input makes, if it makes one, meets a condition. -/
def Meets (condition : List (Entry Reply World Operation) → Program.Moment World Reply → Prop)
    (pool : Pool Reply α World Operation) (input : Pool.Input Reply Operation Event) : Prop :=
  ∀ moment ∈ system.made pool input, condition pool.history moment

/-- Whether a call meets a condition that can be decided can be decided. -/
instance decidableMeets
    {condition : List (Entry Reply World Operation) → Program.Moment World Reply → Prop}
    [∀ history moment, Decidable (condition history moment)]
    (pool : Pool Reply α World Operation) (input : Pool.Input Reply Operation Event) :
    Decidable (system.Meets condition pool input) :=
  inferInstanceAs (Decidable (∀ moment ∈ system.made pool input, _))

end System

/-- What the operations of a system guarantee of their calls and achieve, whatever the replies. -/
structure Conduct {Call : Type} {Reply : Call → Type} {α World Operation Event : Type}
    (system : System Reply α World Operation Event) where
  /-- What an operation guarantees of a call, given those it has made. -/
  guarantee : Operation → List (Program.Moment World Reply) → Call → Prop
  /-- What an operation has achieved when it returns. -/
  post : Operation → List (Program.Moment World Reply) → α → Prop
  /-- The programs conduct themselves so. -/
  programs : ∀ operation, (system.program operation).Ensures
    ⟨guarantee operation, fun _ _ => True⟩ (post operation) []

/-- Two ways to describe the conduct of the same operations. -/
def Conduct.and {Call : Type} {Reply : Call → Type} {α World Operation Event : Type}
    {system : System Reply α World Operation Event} (first second : Conduct system) :
    Conduct system where
  guarantee operation past call :=
    first.guarantee operation past call ∧ second.guarantee operation past call
  post operation past value := first.post operation past value ∧ second.post operation past value
  programs operation := (first.programs operation).and (second.programs operation)

namespace Conduct

variable {Call : Type} {Reply : Call → Type} {α World Operation Event : Type}
  {system : System Reply α World Operation Event} (conduct : Conduct system)

/-- Every call of a history had the guarantee. -/
def Guaranteed (history : List (Entry Reply World Operation)) : Prop :=
  ∀ before entry later, history = before ++ entry :: later →
    conduct.guarantee entry.operation (System.momentsOf before entry.index) entry.moment.call

/-- The calls of an earlier part of the history had it. -/
theorem Guaranteed.earlier {history more : List (Entry Reply World Operation)}
    {conduct : Conduct system} (guaranteed : conduct.Guaranteed (history ++ more)) :
    conduct.Guaranteed history := by
  intro before entry later split
  refine guaranteed before entry (later ++ more) ?_
  rw [split, List.append_assoc, List.cons_append]

/-- Every call a job has made had the guarantee, given the calls the job had made before. -/
theorem Guaranteed.moment {history : List (Entry Reply World Operation)} {conduct : Conduct system}
    (guaranteed : conduct.Guaranteed history) {index : Nat}
    {before after : List (Program.Moment World Reply)} {moment : Program.Moment World Reply}
    (split : System.momentsOf history index = before ++ moment :: after) :
    ∃ entry ∈ history, entry.index = index ∧ entry.moment = moment ∧
      conduct.guarantee entry.operation before moment.call := by
  induction history using List.reverseRecOn generalizing after with
  | nil => simp [System.momentsOf] at split
  | append_singleton history last ih =>
    rw [System.momentsOf_concat] at split
    have inside : ∀ {after'}, System.momentsOf history index = before ++ moment :: after' →
        ∃ entry ∈ history ++ [last], entry.index = index ∧ entry.moment = moment ∧
          conduct.guarantee entry.operation before moment.call := by
      intro after' same
      obtain ⟨entry, member, known⟩ := ih guaranteed.earlier same
      exact ⟨entry, List.mem_append_left _ member, known⟩
    split at split
    · rename_i own
      rcases List.split_concat split with ⟨rfl, rfl, -⟩ | ⟨after', -, same⟩
      · subst own
        exact ⟨last, by simp, rfl, rfl, guaranteed history last [] rfl⟩
      · exact inside same
    · rw [List.append_nil] at split
      exact inside split

/-- All operations of a pool have conducted themselves well and will. -/
structure Kept (pool : Pool Reply α World Operation) : Prop where
  recorded : System.Recorded pool
  rests : ∀ job ∈ pool.jobs, job.rest.Ensures ⟨conduct.guarantee job.operation, fun _ _ => True⟩
    (conduct.post job.operation) job.past
  entries : conduct.Guaranteed pool.history

variable {conduct}

variable {pool : Pool Reply α World Operation}

/-- An operation that has returned has achieved its aim. -/
theorem Kept.achieved (kept : conduct.Kept pool) {index : Nat} {operation : Operation} {value : α}
    (returned : System.outcome pool index = some (operation, value)) :
    conduct.post operation (System.momentsOf pool.history index) value := by
  obtain ⟨job, found, rfl, done⟩ := System.outcome_eq_some returned
  have ensures := kept.rests job (List.mem_of_getElem? found)
  rw [done] at ensures
  rw [← kept.recorded.past index job found]
  exact ensures

/-- The next call of a job is guaranteed. -/
theorem Kept.next (kept : conduct.Kept pool) {index : Nat} {job : Job Reply α World Operation}
    {request : Call} {next : Reply request → Program Reply α} (found : pool.jobs[index]? = some job)
    (awaiting : job.rest = .await request next) :
    conduct.guarantee job.operation (System.momentsOf pool.history index) request := by
  have ensures := kept.rests job (List.mem_of_getElem? found)
  rw [awaiting] at ensures
  rw [← kept.recorded.past index job found]
  exact ensures.1

/-- No operation has done anything yet. -/
theorem kept_initial (world : World) : conduct.Kept (System.initial world) :=
  ⟨⟨by simp [System.initial], by simp [System.initial]⟩, by simp [System.initial],
    by simp [Guaranteed, System.initial]⟩

/-- One step keeps the conduct. -/
theorem kept_step {input : Pool.Input Reply Operation Event} (kept : conduct.Kept pool) :
    conduct.Kept (system.step pool input) := by
  have recorded : System.Recorded (system.step pool input) := system.recorded_step kept.recorded
  have stepped := system.step_cases pool input
  generalize system.step pool input = after at stepped recorded ⊢
  cases stepped with
  | start operation =>
    refine ⟨recorded, fun job member => ?_, kept.entries⟩
    rcases List.mem_concat_iff.mp member with earlier | rfl
    · exact kept.rests job earlier
    · exact conduct.programs operation
  | call index proposal job request next reply world found awaiting answered =>
    refine ⟨recorded, fun other member => ?_, fun before entry later split => ?_⟩
    · rcases System.mem_set member with rfl | earlier
      · have ensures := kept.rests job (List.mem_of_getElem? found)
        rw [awaiting] at ensures
        exact ensures.2 pool.world reply trivial
      · exact kept.rests other earlier
    · rcases List.split_concat split with ⟨rfl, rfl, -⟩ | ⟨later', -, same⟩
      · exact kept.next found awaiting
      · exact kept.entries before entry later' same
  | idle index proposal => exact kept
  | disturb event => exact ⟨recorded, kept.rests, kept.entries⟩

/-- Calls that are guaranteed and meet the condition keep an invariant of the history and the world,
so it holds throughout every run that meets the condition. -/
theorem invariant_run (conduct : Conduct system)
    (invariant : List (Entry Reply World Operation) → World → Prop)
    {condition : List (Entry Reply World Operation) → Program.Moment World Reply → Prop}
    {world : World} (base : invariant [] world)
    (calls : ∀ {index operation history world call proposal reply after},
      conduct.Guaranteed history → invariant history world →
        conduct.guarantee operation (System.momentsOf history index) call →
          system.handle world call proposal = some (reply, after) →
            condition history ⟨world, call, reply⟩ →
              invariant (history ++ [⟨index, operation, ⟨world, call, reply⟩⟩]) after)
    (disturbed : ∀ {history world} event, invariant history world →
      invariant history (system.disturb world event))
    {inputs : List (Pool.Input Reply Operation Event)}
    (meets : Run.Along system.step (System.initial world) (system.Meets condition) inputs) :
    Run.Throughout system.step (System.initial world)
      (fun pool => conduct.Kept pool ∧ invariant pool.history pool.world) inputs := by
  refine Run.invariant ⟨kept_initial world, base⟩ ?_ meets
  rintro pool input ⟨kept, holds⟩ met
  refine ⟨kept_step kept, ?_⟩
  have stepped := system.step_cases pool input
  generalize system.step pool input = after at stepped ⊢
  cases stepped with
  | start operation => exact holds
  | call index proposal job request next reply world found awaiting answered =>
    refine calls kept.entries holds (kept.next found awaiting) answered (met _ ?_)
    simp only [System.made, found, awaiting, answered, Option.map_some, Option.mem_def]
  | idle index proposal => exact holds
  | disturb event => exact disturbed event holds

/-- Where every guaranteed call keeps an invariant it holds in every pool that is reached. -/
theorem invariant_always (conduct : Conduct system)
    (invariant : List (Entry Reply World Operation) → World → Prop) {world : World}
    (base : invariant [] world)
    (calls : ∀ {index operation history world call proposal reply after},
      conduct.Guaranteed history → invariant history world →
        conduct.guarantee operation (System.momentsOf history index) call →
          system.handle world call proposal = some (reply, after) →
            invariant (history ++ [⟨index, operation, ⟨world, call, reply⟩⟩]) after)
    (disturbed : ∀ {history world} event, invariant history world →
      invariant history (system.disturb world event))
    (inputs : List (Pool.Input Reply Operation Event)) :
    conduct.Kept (Run.exec system.step (System.initial world) inputs) ∧
      invariant (Run.exec system.step (System.initial world) inputs).history
        (Run.exec system.step (System.initial world) inputs).world := by
  have always :
      Run.Along system.step (System.initial world) (system.Meets fun _ _ => True) inputs :=
    fun _ _ _ _ _ => trivial
  exact (conduct.invariant_run invariant base (fun guaranteed holds kept answered _ =>
    calls guaranteed holds kept answered) disturbed always).last

end Conduct
