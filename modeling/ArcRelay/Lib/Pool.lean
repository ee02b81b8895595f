import ArcRelay.Lib.Program
import ArcRelay.Lib.Run

/-!
# Programs that share a world

A pool is a world and the jobs running on it. A step starts a job, lets one
job make its next call, or changes the world from outside. The calls of
different jobs interleave in any order, and between its calls a job does not
touch the world.

Every job remembers its past, each call with its reply and the world it was made
in, and the pool remembers the calls of all jobs in order. The rules derive facts
about the world and about every remembered moment from what single calls do.
-/

namespace List

variable {α : Type} (marked : α → Prop)

variable {later before : List α} {element : α}

/-- A suffix without a marked element lies behind every marked one. -/
theorem suffix_of_unmarked {suffix : List α} (isSuffix : suffix <:+ before ++ element :: later)
    (mark : marked element) (unmarked : ∀ other ∈ suffix, ¬ marked other) : suffix <:+ later := by
  have whole : element :: later <:+ before ++ element :: later := suffix_append _ _
  rcases suffix_or_suffix_of_suffix isSuffix whole with shorter | longer
  · rcases suffix_cons_iff.mp shorter with rfl | inside
    · exact absurd mark (unmarked element mem_cons_self)
    · exact inside
  · exact absurd mark (unmarked element (longer.subset mem_cons_self))

/-- A list is split at its last marked element in one way. -/
theorem split_last_unique {before' later' : List α} {element' : α}
    (same : before ++ element :: later = before' ++ element' :: later') (mark : marked element)
    (mark' : marked element') (unmarked : ∀ other ∈ later, ¬ marked other)
    (unmarked' : ∀ other ∈ later', ¬ marked other) : element = element' ∧ later = later' := by
  have behind : later <:+ before ++ element :: later := (suffix_cons _ _).trans (suffix_append _ _)
  have behind' : later' <:+ before' ++ element' :: later' :=
    (suffix_cons _ _).trans (suffix_append _ _)
  have first : later <:+ later' := suffix_of_unmarked marked (same ▸ behind) mark' unmarked
  have second : later' <:+ later := suffix_of_unmarked marked (same ▸ behind') mark unmarked'
  obtain rfl := first.eq_of_length (le_antisymm first.length_le second.length_le)
  exact ⟨(List.cons.inj (append_inj' same rfl).2).1, rfl⟩

/-- A list with a marked element is split at its last one. -/
theorem exists_split_last {list : List α} (member : element ∈ list) (mark : marked element) :
    ∃ before last later, list = before ++ last :: later ∧ marked last ∧
      ∀ other ∈ later, ¬ marked other := by
  induction list using List.reverseRecOn with
  | nil => cases member
  | append_singleton list last ih =>
    by_cases final : marked last
    · exact ⟨list, last, [], rfl, final, by simp⟩
    · rcases mem_append.mp member with earlier | now
      · obtain ⟨before, found, later, rfl, holds, none⟩ := ih earlier
        refine ⟨before, found, later ++ [last], by simp, holds, fun other here => ?_⟩
        rcases mem_append.mp here with inside | atEnd
        · exact none other inside
        · exact (mem_singleton.mp atEnd).symm ▸ final
      · exact absurd (mem_singleton.mp now ▸ mark) final

omit marked in
/-- A split of a longer list is at its end or one of the list. -/
theorem split_concat {list : List α} {last : α}
    (same : list ++ [last] = before ++ element :: later) :
    (before = list ∧ element = last ∧ later = []) ∨
      ∃ later', later = later' ++ [last] ∧ list = before ++ element :: later' := by
  cases later using List.reverseRecOn with
  | nil =>
    obtain ⟨rfl, ends⟩ := append_inj' same rfl
    exact Or.inl ⟨rfl, (cons.inj ends).1.symm, rfl⟩
  | append_singleton later' final =>
    rw [← cons_append, ← append_assoc] at same
    obtain ⟨rfl, ends⟩ := append_inj' same rfl
    exact Or.inr ⟨later', by rw [(cons.inj ends).1], rfl⟩

omit marked in
/-- Two splits of a list are the same, or one comes before the other. -/
theorem split_order {before' later' : List α} {element' : α}
    (same : before ++ element :: later = before' ++ element' :: later') :
    (before = before' ∧ element = element') ∨ (∃ middle, before' = before ++ element :: middle) ∨
      ∃ middle, before = before' ++ element' :: middle := by
  rcases append_eq_append_iff.mp same with ⟨middle, rfl, tail⟩ | ⟨middle, rfl, tail⟩ <;>
    cases middle with
    | nil => exact Or.inl ⟨by simp, by simp_all⟩
    | cons first middle =>
      obtain ⟨rfl, -⟩ := cons.inj tail
      first | exact Or.inr (Or.inl ⟨middle, rfl⟩) | exact Or.inr (Or.inr ⟨middle, rfl⟩)

end List

/-- What the jobs of a pool are and what their calls do. -/
structure System {Call : Type} (Reply : Call → Type) (α World Operation Event : Type) where
  program : Operation → Program Reply α
  handle : Program.Handler World Reply
  /-- What changes the world from outside. -/
  disturb : World → Event → World

/-- A job: the operation, what has happened to it, and what is left of its program. -/
structure Job {Call : Type} (Reply : Call → Type) (α World Operation : Type) where
  operation : Operation
  past : List (Program.Moment World Reply)
  rest : Program Reply α

/-- A call as the pool remembers it: which job made it, for which operation. -/
structure Entry {Call : Type} (Reply : Call → Type) (World Operation : Type) where
  index : Nat
  operation : Operation
  /-- The call with its reply and the world before it. -/
  moment : Program.Moment World Reply

/-- A world, the jobs on it, and all their calls in the order they were made. -/
structure Pool {Call : Type} (Reply : Call → Type) (α World Operation : Type) where
  world : World
  /-- The jobs, in the order they were started. -/
  jobs : List (Job Reply α World Operation)
  /-- The calls of all jobs, oldest first. -/
  history : List (Entry Reply World Operation)

/-- One thing that happens to a pool. -/
inductive Pool.Input {Call : Type} (Reply : Call → Type) (Operation Event : Type) where
  | start (operation : Operation)
  /-- A job makes its next call, for which the environment has a proposal. -/
  | resume (index : Nat) (proposal : (call : Call) → Reply call)
  | disturb (event : Event)

namespace System

variable {Call : Type} {Reply : Call → Type} {α World Operation Event : Type}

/-- Let a job make its next call. A job that has returned, or that has to wait, stays as it
is. -/
def resume (system : System Reply α World Operation Event) (pool : Pool Reply α World Operation)
    (index : Nat) (proposal : (call : Call) → Reply call) : Pool Reply α World Operation :=
  match pool.jobs[index]? with
  | none => pool
  | some job =>
    match job.rest with
    | .done _ => pool
    | .await call next =>
      match system.handle pool.world call (proposal call) with
      | none => pool
      | some (reply, world) =>
        { world
          jobs := pool.jobs.set index
            { job with past := job.past ++ [⟨pool.world, call, reply⟩], rest := next reply }
          history := pool.history ++ [⟨index, job.operation, ⟨pool.world, call, reply⟩⟩] }

/-- One step of a pool. -/
def step (system : System Reply α World Operation Event) (pool : Pool Reply α World Operation) :
    Pool.Input Reply Operation Event → Pool Reply α World Operation
  | .start operation =>
    { pool with jobs := pool.jobs ++ [⟨operation, [], system.program operation⟩] }
  | .resume index proposal => system.resume pool index proposal
  | .disturb event => { pool with world := system.disturb pool.world event }

/-- A pool in which nothing has been started. -/
def initial (world : World) : Pool Reply α World Operation := ⟨world, [], []⟩

variable (system : System Reply α World Operation Event)

/-- What one step of a pool can do. -/
inductive Step (pool : Pool Reply α World Operation) :
    Pool.Input Reply Operation Event → Pool Reply α World Operation → Prop
  | start (operation : Operation) : Step pool (.start operation)
      { pool with jobs := pool.jobs ++ [⟨operation, [], system.program operation⟩] }
  | call (index : Nat) (proposal : (call : Call) → Reply call)
    (job : Job Reply α World Operation) (request : Call)
    (next : Reply request → Program Reply α) (reply : Reply request) (world : World)
    (found : pool.jobs[index]? = some job) (awaiting : job.rest = .await request next)
    (answered : system.handle pool.world request (proposal request) = some (reply, world)) :
    Step pool (.resume index proposal)
      { world
        jobs := pool.jobs.set index
          { job with past := job.past ++ [⟨pool.world, request, reply⟩], rest := next reply }
        history := pool.history ++ [⟨index, job.operation, ⟨pool.world, request, reply⟩⟩] }
  /-- A job that cannot go on stays as it is. -/
  | idle (index : Nat) (proposal : (call : Call) → Reply call) :
    Step pool (.resume index proposal) pool
  | disturb (event : Event) : Step pool (.disturb event)
      { pool with world := system.disturb pool.world event }

/-- Every step is one of these. -/
theorem step_cases (pool : Pool Reply α World Operation)
    (input : Pool.Input Reply Operation Event) :
    Step system pool input (system.step pool input) := by
  cases input with
  | start operation => exact .start operation
  | disturb event => exact .disturb event
  | resume index proposal =>
    simp only [step, resume]
    split
    · exact .idle index proposal
    · rename_i job found
      split
      · exact .idle index proposal
      · rename_i call next awaiting
        split
        · exact .idle index proposal
        · rename_i reply world answered
          exact .call index proposal job call next reply world found awaiting answered

variable {index : Nat} {job : Job Reply α World Operation}

/-- A job of the pool after a step was there before, has just been started, or is the one that
made a call. -/
theorem mem_set {jobs : List (Job Reply α World Operation)} {other : Job Reply α World Operation}
    (member : other ∈ jobs.set index job) :
    other = job ∨ other ∈ jobs :=
  (List.mem_or_eq_of_mem_set member).symm

/-- The next call of a job that an input resumes. -/
def Next (pool : Pool Reply α World Operation) (input : Pool.Input Reply Operation Event)
    (request : Call) : Prop :=
  ∃ index proposal job next, input = .resume index proposal ∧
    pool.jobs[index]? = some job ∧ job.rest = .await request next

/-- What a job that has returned was about and what it returned. -/
def outcome (pool : Pool Reply α World Operation) (index : Nat) : Option (Operation × α) :=
  match pool.jobs[index]? with
  | some job =>
    match job.rest with
    | .done value => some (job.operation, value)
    | .await _ _ => none
  | none => none

variable {pool : Pool Reply α World Operation}

/-- An outcome is that of a job which has returned. -/
theorem outcome_eq_some {operation : Operation} {value : α}
    (returned : outcome pool index = some (operation, value)) :
    ∃ job, pool.jobs[index]? = some job ∧ job.operation = operation ∧ job.rest = .done value := by
  unfold outcome at returned
  split at returned
  · rename_i job found
    split at returned
    · rename_i done
      cases returned
      exact ⟨job, found, rfl, done⟩
    · cases returned
  · cases returned

variable {input : Pool.Input Reply Operation Event}

/-- The step by which a job returns is its last call, unless it returns without a call. -/
theorem returning {operation : Operation} {value : α} (running : outcome pool index = none)
    (returned : outcome (system.step pool input) index = some (operation, value)) :
    ∃ job, (system.step pool input).jobs[index]? = some job ∧ job.operation = operation ∧
      job.rest = .done value ∧ (job.past = [] ∨ ∃ before request proposal reply,
        job.past = before ++ [⟨pool.world, request, reply⟩] ∧
          system.handle pool.world request proposal =
            some (reply, (system.step pool input).world)) := by
  obtain ⟨job, found, about, done⟩ := outcome_eq_some returned
  refine ⟨job, found, about, done, ?_⟩
  have unreturned : ∀ job, pool.jobs[index]? = some job → ∀ value, job.rest ≠ .done value :=
    fun job present value ended => by simp [outcome, present, ended] at running
  have stepped := system.step_cases pool input
  generalize system.step pool input = after at stepped found ⊢
  cases stepped with
  | start operation =>
    by_cases old : index < pool.jobs.length
    · exact absurd done (unreturned job ((List.getElem?_append_left old).symm.trans found) value)
    · have new := List.mem_of_getElem? ((List.getElem?_append_right (by omega)).symm.trans found)
      exact Or.inl (congrArg Job.past (List.mem_singleton.mp new))
  | call place proposal caller request next reply world present awaiting answered =>
    by_cases own : place = index
    · subst own
      rw [List.getElem?_set_self (List.getElem?_eq_some_iff.mp present).1] at found
      cases found
      exact Or.inr ⟨caller.past, request, proposal request, reply, rfl, answered⟩
    · rw [List.getElem?_set_ne own] at found
      exact absurd done (unreturned job found value)
  | idle place proposal => exact absurd done (unreturned job found value)
  | disturb event => exact absurd done (unreturned job found value)

/-- The call of which `Next` speaks. -/
def nextCall (pool : Pool Reply α World Operation) (input : Pool.Input Reply Operation Event) :
    Option Call :=
  match input with
  | .resume index _ =>
    match pool.jobs[index]? with
    | some job =>
      match job.rest with
      | .await request _ => some request
      | .done _ => none
    | none => none
  | _ => none

/-- The next call is computed. -/
theorem next_iff {request : Call} :
    Next pool input request ↔ nextCall pool input = some request := by
  constructor
  · rintro ⟨index, proposal, job, next, rfl, found, awaiting⟩
    simp only [nextCall, found, awaiting]
  · intro computed
    unfold nextCall at computed
    split at computed
    · rename_i index proposal
      split at computed
      · rename_i job found
        split at computed
        · rename_i awaiting
          cases computed
          exact ⟨index, proposal, job, _, rfl, found, awaiting⟩
        · cases computed
      · cases computed
    · cases computed

/-- What is assumed of the next call can be decided. -/
instance decidableNext {assumed : Call → Prop} [DecidablePred assumed]
    (pool : Pool Reply α World Operation) (input : Pool.Input Reply Operation Event) :
    Decidable (∀ request, Next pool input request → assumed request) :=
  decidable_of_iff (∀ request ∈ nextCall pool input, assumed request)
    (by simp only [next_iff, Option.mem_def])

/-! ## Rules -/

/-- Each job is where its past has led its program, and every remembered reply was given by the
world of its moment. -/
def Sound (pool : Pool Reply α World Operation) : Prop :=
  ∀ job ∈ pool.jobs, Program.Leads (system.program job.operation) job.past job.rest ∧
    ∀ moment ∈ job.past, ∃ proposal after,
      system.handle moment.world moment.call proposal = some (moment.reply, after)

/-- One step keeps the pool sound. -/
theorem sound_step (sound : system.Sound pool) : system.Sound (system.step pool input) := by
  have stepped := system.step_cases pool input
  generalize system.step pool input = after at stepped ⊢
  cases stepped with
  | start operation =>
    intro job member
    rcases List.mem_concat_iff.mp member with earlier | rfl
    · exact sound job earlier
    · exact ⟨.nil _, by simp⟩
  | call index proposal job request next reply world found awaiting answered =>
    intro other member
    rcases mem_set member with rfl | earlier
    · obtain ⟨leads, replied⟩ := sound job (List.mem_of_getElem? found)
      rw [awaiting] at leads
      refine ⟨leads.concat pool.world reply, fun moment remembered => ?_⟩
      rcases List.mem_concat_iff.mp remembered with before | rfl
      · exact replied moment before
      · exact ⟨_, _, answered⟩
    · exact sound other earlier
  | idle index proposal => exact sound
  | disturb event => exact sound

/-- Every reachable pool is sound. -/
theorem sound_run (world : World) (inputs : List (Pool.Input Reply Operation Event)) :
    system.Sound (Run.exec system.step (initial world) inputs) :=
  Run.Throughout.last <| Run.invariant_always (by intro job member; cases member)
    (fun _ _ => system.sound_step) inputs

/-- The calls of one job, out of all calls. -/
def momentsOf (history : List (Entry Reply World Operation)) (index : Nat) :
    List (Program.Moment World Reply) :=
  (history.filter fun entry => entry.index = index).map Entry.moment

/-- The calls of a job in two parts of the history. -/
theorem momentsOf_append (first second : List (Entry Reply World Operation)) (index : Nat) :
    momentsOf (first ++ second) index = momentsOf first index ++ momentsOf second index := by
  simp [momentsOf]

/-- A call of the job in front. -/
theorem momentsOf_cons_self (entry : Entry Reply World Operation)
    (history : List (Entry Reply World Operation)) :
    momentsOf (entry :: history) entry.index = entry.moment :: momentsOf history entry.index := by
  simp [momentsOf]

/-- A call of the job among all calls. -/
theorem mem_momentsOf {history : List (Entry Reply World Operation)}
    {moment : Program.Moment World Reply} :
    moment ∈ momentsOf history index ↔
      ∃ entry ∈ history, entry.index = index ∧ entry.moment = moment := by
  simp [momentsOf, and_assoc]

/-- One more call of the pool is added to the calls of its job. -/
theorem momentsOf_concat (history : List (Entry Reply World Operation))
    (entry : Entry Reply World Operation) (index : Nat) :
    momentsOf (history ++ [entry]) index =
      momentsOf history index ++ if entry.index = index then [entry.moment] else [] := by
  by_cases own : entry.index = index <;> simp [momentsOf, own]

/-- The pool remembers of every job exactly its past. -/
structure Recorded (pool : Pool Reply α World Operation) : Prop where
  /-- The past of a job is what the pool remembers of it. -/
  past : ∀ index job, pool.jobs[index]? = some job → job.past = momentsOf pool.history index
  /-- Every call was made by a job of the pool. -/
  known : ∀ entry ∈ pool.history, ∃ job, pool.jobs[entry.index]? = some job ∧
    job.operation = entry.operation

/-- One step keeps the record. -/
theorem recorded_step (recorded : Recorded pool) :
    Recorded (system.step pool input) := by
  have stepped := system.step_cases pool input
  generalize system.step pool input = after at stepped ⊢
  cases stepped with
  | start operation =>
    refine ⟨fun index job found => ?_, fun entry member => ?_⟩
    · by_cases old : index < pool.jobs.length
      · exact recorded.past index job ((List.getElem?_append_left old).symm.trans found)
      · have nothing : momentsOf pool.history index = [] := by
          -- no call has been made by a job that did not exist
          refine List.map_eq_nil_iff.mpr (List.filter_eq_nil_iff.mpr fun entry member own => ?_)
          obtain ⟨job, earlier, -⟩ := recorded.known entry member
          rw [of_decide_eq_true own] at earlier
          exact old (List.getElem?_eq_some_iff.mp earlier).1
        have new := List.mem_of_getElem? ((List.getElem?_append_right (by omega)).symm.trans found)
        rw [List.mem_singleton.mp new, nothing]
    · obtain ⟨job, found, same⟩ := recorded.known entry member
      exact ⟨job, (List.getElem?_append_left (List.getElem?_eq_some_iff.mp found).1).trans found,
        same⟩
  | call index proposal job request next reply world found awaiting answered =>
    have bound := (List.getElem?_eq_some_iff.mp found).1
    refine ⟨fun other changed present => ?_, fun entry member => ?_⟩
    · rw [momentsOf_concat]
      by_cases own : index = other
      · subst own
        rw [List.getElem?_set_self bound] at present
        cases present
        rw [if_pos rfl, recorded.past index job found]
      · rw [List.getElem?_set_ne own] at present
        rw [if_neg own, List.append_nil]
        exact recorded.past other changed present
    · rcases List.mem_concat_iff.mp member with earlier | rfl
      · obtain ⟨job', present, same⟩ := recorded.known entry earlier
        by_cases own : index = entry.index
        · rw [← own, found] at present
          cases present
          rw [← own]
          exact ⟨_, List.getElem?_set_self bound, same⟩
        · exact ⟨job', (List.getElem?_set_ne own).trans present, same⟩
      · exact ⟨_, List.getElem?_set_self bound, rfl⟩
  | idle index proposal => exact recorded
  | disturb event => exact ⟨recorded.past, recorded.known⟩

/-- One step forgets no call. -/
theorem history_step (pool : Pool Reply α World Operation)
    (input : Pool.Input Reply Operation Event) :
    pool.history <+: (system.step pool input).history := by
  have stepped := system.step_cases pool input
  generalize system.step pool input = after at stepped ⊢
  cases stepped with
  | start operation => exact List.prefix_refl _
  | call index proposal job request next reply world found awaiting answered =>
    exact List.prefix_append _ _
  | idle index proposal => exact List.prefix_refl _
  | disturb event => exact List.prefix_refl _

/-- A run forgets no call. -/
theorem history_run (pool : Pool Reply α World Operation)
    (inputs : List (Pool.Input Reply Operation Event)) :
    pool.history <+: (Run.exec system.step pool inputs).history := by
  induction inputs using List.reverseRecOn with
  | nil => exact List.prefix_refl _
  | append_singleton inputs input ih =>
    rw [Run.exec_concat]
    exact ih.trans (system.history_step _ input)

/-- A job whose call can be answered makes it. -/
theorem jobs_resume {request : Call} {next : Reply request → Program Reply α}
    {reply : Reply request} {world : World} (proposal : (call : Call) → Reply call)
    (found : pool.jobs[index]? = some job) (awaiting : job.rest = .await request next)
    (answered : system.handle pool.world request (proposal request) = some (reply, world)) :
    (system.step pool (.resume index proposal)).jobs[index]? =
      some { job with past := job.past ++ [⟨pool.world, request, reply⟩], rest := next reply } := by
  simp only [step, resume, found, awaiting, answered]
  exact List.getElem?_set_self (List.getElem?_eq_some_iff.mp found).1

/-- A job stays as it is or makes its next call. -/
theorem jobs_step (found : pool.jobs[index]? = some job)
    (input : Pool.Input Reply Operation Event) :
    (system.step pool input).jobs[index]? = some job ∨ ∃ request next reply,
      job.rest = .await request next ∧ (system.step pool input).jobs[index]? = some
        { job with past := job.past ++ [⟨pool.world, request, reply⟩], rest := next reply } := by
  have bound := (List.getElem?_eq_some_iff.mp found).1
  have stepped := system.step_cases pool input
  generalize system.step pool input = after at stepped ⊢
  cases stepped with
  | start operation => exact Or.inl ((List.getElem?_append_left bound).trans found)
  | call other proposal job' request next reply world present awaiting answered =>
    by_cases own : other = index
    · subst own
      obtain rfl : job' = job := Option.some.inj (present.symm.trans found)
      exact Or.inr ⟨request, next, reply, awaiting, List.getElem?_set_self bound⟩
    · exact Or.inl ((List.getElem?_set_ne own).trans found)
  | idle other proposal => exact Or.inl found
  | disturb event => exact Or.inl found

/-- A job is not lost and forgets no call. -/
theorem jobs_run (found : pool.jobs[index]? = some job)
    (inputs : List (Pool.Input Reply Operation Event)) :
    ∃ later, (Run.exec system.step pool inputs).jobs[index]? = some later ∧
      later.operation = job.operation ∧ job.past ⊆ later.past := by
  induction inputs using List.reverseRecOn with
  | nil => exact ⟨job, found, rfl, List.Subset.refl _⟩
  | append_singleton inputs input ih =>
    obtain ⟨later, present, same, subset⟩ := ih
    rw [Run.exec_concat]
    rcases system.jobs_step present input with stays | ⟨request, next, reply, -, goesOn⟩
    · exact ⟨later, stays, same, subset⟩
    · exact ⟨_, goesOn, same, List.Subset.trans subset (List.subset_append_left _ _)⟩

/-- A job that has returned stays as it is. -/
theorem jobs_run_of_done {value : α} (found : pool.jobs[index]? = some job)
    (done : job.rest = .done value) (inputs : List (Pool.Input Reply Operation Event)) :
    (Run.exec system.step pool inputs).jobs[index]? = some job := by
  induction inputs using List.reverseRecOn with
  | nil => exact found
  | append_singleton inputs input ih =>
    rw [Run.exec_concat]
    rcases system.jobs_step ih input with same | ⟨request, next, reply, awaiting, -⟩
    · exact same
    · cases done.symm.trans awaiting

/-- The outcome of a job that has returned. -/
theorem outcome_of_done {value : α} (found : pool.jobs[index]? = some job)
    (done : job.rest = .done value) : outcome pool index = some (job.operation, value) := by
  simp only [outcome, found, done]

/-- Every reachable pool remembers its jobs. -/
theorem recorded_run (world : World) (inputs : List (Pool.Input Reply Operation Event)) :
    Recorded (Run.exec system.step (initial world) inputs) :=
  Run.Throughout.last <| Run.invariant_always ⟨by simp [initial], by simp [initial]⟩
    (fun _ _ => system.recorded_step) inputs

end System
