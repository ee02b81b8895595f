import ArcRelay.Lib.Pool

/-!
# Withdrawing a permission in two stages

An operation first revokes a permission and later clears what was built on it;
between the two stages other jobs make calls. If nothing is built without the
permission, and nobody restores the permission while the operation is under way,
then from its return on, until the permission is restored, the permission is
absent and nothing is built on it.
-/

namespace System

variable {Call : Type} {Reply : Call → Type} {α World Operation Event : Type}

/-- The calls that were made since a job made its last one. -/
def CallsSince (history : List (Entry Reply World Operation)) (index : Nat)
    (later : List (Entry Reply World Operation)) : Prop :=
  ∃ before last, history = before ++ last :: later ∧ last.index = index ∧
    ∀ entry ∈ later, entry.index ≠ index

variable {history : List (Entry Reply World Operation)}

/-- After a call of the job itself no call has been made. -/
theorem callsSince_self {later : List (Entry Reply World Operation)}
    {entry : Entry Reply World Operation}
    (since : CallsSince (history ++ [entry]) entry.index later) : later = [] := by
  obtain ⟨before, last, split, -, others⟩ := since
  rcases List.split_concat split with ⟨-, -, rfl⟩ | ⟨later', rfl, -⟩
  · rfl
  · exact absurd rfl (others entry (by simp))

/-- After a call of another job one call more has been made. -/
theorem callsSince_concat {later : List (Entry Reply World Operation)}
    {entry : Entry Reply World Operation} {index : Nat} (other : entry.index ≠ index)
    (since : CallsSince (history ++ [entry]) index later) :
    ∃ later', later = later' ++ [entry] ∧ CallsSince history index later' := by
  obtain ⟨before, last, split, own, others⟩ := since
  rcases List.split_concat split with ⟨-, rfl, -⟩ | ⟨later', rfl, same⟩
  · exact absurd own other
  · exact ⟨later', rfl, before, last, same, own, fun call member =>
      others call (List.mem_append_left _ member)⟩

/-- The calls since the last one of a job, from the end of the history. -/
def since (history : List (Entry Reply World Operation)) (index : Nat) :
    List (Entry Reply World Operation) :=
  history.rtakeWhile fun entry => entry.index ≠ index

/-- If the job has made a call, these are the calls since its last one. -/
theorem callsSince_since {index : Nat} (made : ∃ entry ∈ history, entry.index = index) :
    CallsSince history index (since history index) := by
  induction history using List.reverseRecOn with
  | nil =>
    obtain ⟨entry, member, -⟩ := made
    cases member
  | append_singleton history last ih =>
    by_cases own : last.index = index
    · refine ⟨history, last, ?_, own, ?_⟩
      · rw [since, List.rtakeWhile_concat_neg _ _ _ (by simpa using own)]
      · rw [since, List.rtakeWhile_concat_neg _ _ _ (by simpa using own)]
        simp
    · obtain ⟨entry, member, named⟩ := made
      have earlier : entry ∈ history := by
        rcases List.mem_concat_iff.mp member with before | rfl
        · exact before
        · exact absurd named own
      obtain ⟨before, first, split, named, others⟩ := ih ⟨entry, earlier, named⟩
      have grown : since (history ++ [last]) index = since history index ++ [last] :=
        List.rtakeWhile_concat_pos _ _ _ (by simpa using own)
      refine ⟨before, first, ?_, named, ?_⟩
      · rw [grown, ← List.cons_append, ← List.append_assoc, ← split]
      · rw [grown]
        intro other member
        rcases List.mem_concat_iff.mp member with inside | rfl
        · exact others other inside
        · exact own

/-- A job that has made calls and has not returned. -/
def UnderWay (job : Job Reply α World Operation) : Prop :=
  job.past ≠ [] ∧ ∀ value, job.rest ≠ .done value

/-- Whether a job is under way can be seen. -/
instance decidableUnderWay (job : Job Reply α World Operation) : Decidable (UnderWay job) :=
  match job with
  | ⟨_, [], _⟩ => .isFalse fun underWay => underWay.1 rfl
  | ⟨_, _ :: _, .done value⟩ => .isFalse fun underWay => underWay.2 value rfl
  | ⟨_, _ :: _, .await _ _⟩ => .isTrue ⟨nofun, nofun⟩

end System

/-- A permission, what is built on it, and the operations that withdraw it. -/
structure Withdrawal {Call : Type} {Reply : Call → Type} {α World Operation Event : Type}
    (system : System Reply α World Operation Event) where
  /-- The operations that withdraw the permission. -/
  withdraws : Operation → Prop
  succeeded : α → Prop
  /-- The first stage: the permission is revoked. -/
  revokes : Program.Moment World Reply → Prop
  /-- The last stage: what was built is cleared. -/
  clears : Call → Prop
  /-- The calls that can restore the permission. -/
  mayRestore : Call → Prop
  restores : Program.Moment World Reply → Prop
  absent : World → Prop
  /-- Nothing is built on the permission. -/
  clean : World → Prop
  admissible : World → Call → Prop
  /-- The last stage comes after the first, and success after the last. -/
  programs : ∀ operation, withdraws operation → (system.program operation).Ensures
    ⟨fun past call => clears call → ∃ moment ∈ past, revokes moment, fun _ _ => True⟩
    (fun past value => succeeded value → ∃ before last, past = before ++ [last] ∧
      clears last.call) []
  restoring : ∀ moment, restores moment → mayRestore moment.call
  /-- The first stage makes the permission absent. -/
  revoked : ∀ {world call proposal reply after},
    system.handle world call proposal = some (reply, after) → revokes ⟨world, call, reply⟩ →
      absent after
  /-- The permission stays absent until it is restored. -/
  remains : ∀ {world call proposal reply after}, absent world → admissible world call →
    system.handle world call proposal = some (reply, after) → ¬ restores ⟨world, call, reply⟩ →
      absent after
  cleared : ∀ {world call proposal reply after}, clears call →
    system.handle world call proposal = some (reply, after) → clean after
  /-- Nothing is built while the permission is absent. -/
  stays : ∀ {world call proposal reply after}, absent world → clean world →
    admissible world call → system.handle world call proposal = some (reply, after) → clean after
  undisturbed : ∀ {world} event, absent world → absent (system.disturb world event)
  unbuilt : ∀ {world} event, clean world → clean (system.disturb world event)

namespace Withdrawal

variable {Call : Type} {Reply : Call → Type} {α World Operation Event : Type}
  {system : System Reply α World Operation Event} (withdrawal : Withdrawal system)

/-- What a run is assumed to respect: calls are admissible, and nobody restores the permission while
it is being withdrawn. -/
def Respected (pool : Pool Reply α World Operation) (input : Pool.Input Reply Operation Event) :
    Prop :=
  ∀ request, System.Next pool input request → withdrawal.admissible pool.world request ∧
    (withdrawal.mayRestore request → ∀ job ∈ pool.jobs, withdrawal.withdraws job.operation →
      ¬ System.UnderWay job)

/-- A call made while the permission was absent and nothing was built on it. -/
structure Barred (moment : Program.Moment World Reply) : Prop where
  absent : withdrawal.absent moment.world
  clean : withdrawal.clean moment.world
  admissible : withdrawal.admissible moment.world moment.call
  answered : Program.Answered system.handle moment

/-- What the withdrawals of a pool have achieved. -/
structure Achieved (pool : Pool Reply α World Operation) : Prop where
  recorded : System.Recorded pool
  /-- What is left of a withdrawal keeps to its stages. -/
  stages : ∀ job ∈ pool.jobs, withdrawal.withdraws job.operation → job.rest.Ensures
    ⟨fun past call => withdrawal.clears call → ∃ moment ∈ past, withdrawal.revokes moment,
      fun _ _ => True⟩
    (fun past value => withdrawal.succeeded value → ∃ before last, past = before ++ [last] ∧
      withdrawal.clears last.call) job.past
  /-- Between the stages the permission is absent. -/
  between : ∀ job ∈ pool.jobs, withdrawal.withdraws job.operation →
    (∀ value, job.rest ≠ .done value) → (∃ moment ∈ job.past, withdrawal.revokes moment) →
      withdrawal.absent pool.world
  /-- Since a withdrawal has returned, and until the permission is restored, it is absent and
  nothing is built on it. -/
  since : ∀ (index : Nat) (job : Job Reply α World Operation) (value : α) later,
    pool.jobs[index]? = some job → withdrawal.withdraws job.operation → job.rest = .done value →
      withdrawal.succeeded value → System.CallsSince pool.history index later →
        (∀ entry ∈ later, ¬ withdrawal.restores entry.moment) →
          withdrawal.absent pool.world ∧ withdrawal.clean pool.world ∧
            ∀ entry ∈ later, withdrawal.Barred entry.moment

variable {withdrawal}

/-- One call keeps what was achieved. -/
theorem achieved_call {pool : Pool Reply α World Operation} (achieved : withdrawal.Achieved pool)
    {index : Nat} {job : Job Reply α World Operation} {request : Call}
    {next : Reply request → Program Reply α} {proposal reply : Reply request} {world : World}
    (found : pool.jobs[index]? = some job) (awaiting : job.rest = .await request next)
    (answered : system.handle pool.world request proposal = some (reply, world))
    (admissible : withdrawal.admissible pool.world request)
    (undisturbed : withdrawal.mayRestore request → ∀ job ∈ pool.jobs,
      withdrawal.withdraws job.operation → ¬ System.UnderWay job)
    (recorded : System.Recorded (⟨world, pool.jobs.set index
      { job with past := job.past ++ [⟨pool.world, request, reply⟩], rest := next reply },
      pool.history ++ [⟨index, job.operation, ⟨pool.world, request, reply⟩⟩]⟩ :
        Pool Reply α World Operation)) :
    withdrawal.Achieved ⟨world, pool.jobs.set index
      { job with past := job.past ++ [⟨pool.world, request, reply⟩], rest := next reply },
      pool.history ++ [⟨index, job.operation, ⟨pool.world, request, reply⟩⟩]⟩ := by
  have present := List.mem_of_getElem? found
  have bound := (List.getElem?_eq_some_iff.mp found).1
  have running : ∀ value, job.rest ≠ .done value := fun value done => by
    rw [awaiting] at done
    cases done
  -- while a withdrawal is between its stages, a call keeps the permission absent
  have keeps : ∀ other ∈ pool.jobs, withdrawal.withdraws other.operation →
      (∀ value, other.rest ≠ .done value) →
        (∃ moment ∈ other.past, withdrawal.revokes moment) → withdrawal.absent world := by
    intro other member withdraws unreturned staged
    have absent := achieved.between other member withdraws unreturned staged
    refine withdrawal.remains absent admissible answered fun restores => ?_
    obtain ⟨moment, inside, -⟩ := staged
    exact undisturbed (withdrawal.restoring _ restores) other member withdraws
      ⟨List.ne_nil_of_mem inside, unreturned⟩
  refine ⟨recorded, fun other member withdraws => ?_,
    fun other member withdraws unreturned staged =>
    ?_, fun place other value later seen withdraws returned succeeded since unrestored => ?_⟩
  · rcases System.mem_set member with rfl | earlier
    · have ensures := achieved.stages job present withdraws
      rw [awaiting] at ensures
      exact ensures.2 pool.world reply trivial
    · exact achieved.stages other earlier withdraws
  · rcases System.mem_set member with rfl | earlier
    · obtain ⟨moment, inside, revokes⟩ := staged
      rcases List.mem_concat_iff.mp inside with before | rfl
      · exact keeps job present withdraws running ⟨moment, before, revokes⟩
      · exact withdrawal.revoked answered revokes
    · exact keeps other earlier withdraws unreturned staged
  · by_cases own : index = place
    · -- the withdrawal has just returned, with its last stage
      subst own
      rw [List.getElem?_set_self bound] at seen
      cases seen
      have ensures := achieved.stages job present withdraws
      rw [awaiting] at ensures
      have ended := ensures.2 pool.world reply trivial
      dsimp only at returned
      rw [returned] at ended
      obtain ⟨before, last, same, clears⟩ := ended succeeded
      obtain ⟨-, rfl⟩ := List.append_inj' same rfl |>.imp_right fun ends => (List.cons.inj ends).1
      obtain rfl := System.callsSince_self since
      exact ⟨keeps job present withdraws running (ensures.1 clears),
        withdrawal.cleared clears answered, by simp⟩
    · rw [List.getElem?_set_ne own] at seen
      obtain ⟨later', rfl, since'⟩ := System.callsSince_concat own since
      obtain ⟨absent, clean, barred⟩ := achieved.since place other value later' seen withdraws
        returned succeeded since' fun entry member =>
          unrestored entry (List.mem_append_left _ member)
      have unrestoring := unrestored ⟨index, job.operation, ⟨pool.world, request, reply⟩⟩ (by simp)
      refine ⟨withdrawal.remains absent admissible answered unrestoring,
        withdrawal.stays absent clean admissible answered, fun entry member => ?_⟩
      rcases List.mem_concat_iff.mp member with earlier | rfl
      · exact barred entry earlier
      · exact ⟨absent, clean, admissible, _, _, answered⟩

/-- One step keeps what was achieved. -/
theorem achieved_step {pool : Pool Reply α World Operation}
    {input : Pool.Input Reply Operation Event} (achieved : withdrawal.Achieved pool)
    (respected : withdrawal.Respected pool input) :
    withdrawal.Achieved (system.step pool input) := by
  have recorded : System.Recorded (system.step pool input) := system.recorded_step achieved.recorded
  have stepped := system.step_cases pool input
  generalize system.step pool input = after at stepped recorded ⊢
  cases stepped with
  | start operation =>
    refine ⟨recorded, fun job member withdraws => ?_, fun job member withdraws unreturned staged =>
      ?_, fun index job value later seen withdraws returned succeeded since unrestored => ?_⟩
    · rcases List.mem_concat_iff.mp member with earlier | rfl
      · exact achieved.stages job earlier withdraws
      · exact withdrawal.programs operation withdraws
    · rcases List.mem_concat_iff.mp member with earlier | rfl
      · exact achieved.between job earlier withdraws unreturned staged
      · obtain ⟨moment, inside, -⟩ := staged
        cases inside
    · -- a job that made a call was there before
      have split : System.CallsSince pool.history index later := since
      obtain ⟨before, last, same, own, -⟩ := split
      obtain ⟨known, found, -⟩ := achieved.recorded.known last (by simp [same])
      rw [own] at found
      have old := (List.getElem?_eq_some_iff.mp found).1
      have seen' := (List.getElem?_append_left old).symm.trans seen
      exact achieved.since index job value later seen' withdraws returned succeeded since unrestored
  | call index proposal job request next reply world found awaiting answered =>
    obtain ⟨admissible, undisturbed⟩ :=
      respected request ⟨index, proposal, job, next, rfl, found, awaiting⟩
    exact achieved_call achieved found awaiting answered admissible undisturbed recorded
  | idle index proposal => exact achieved
  | disturb event =>
    refine ⟨recorded, achieved.stages, fun job member withdraws unreturned staged => ?_,
      fun index job value later seen withdraws returned succeeded since unrestored => ?_⟩
    · exact withdrawal.undisturbed event (achieved.between job member withdraws unreturned staged)
    · obtain ⟨absent, clean, barred⟩ := achieved.since index job value later seen withdraws
        returned succeeded since unrestored
      exact ⟨withdrawal.undisturbed event absent, withdrawal.unbuilt event clean, barred⟩

/-- In every state of a run that respects it, a withdrawal has achieved what it is for. -/
theorem achieved_run {world : World} {inputs : List (Pool.Input Reply Operation Event)}
    (respected : Run.Along system.step (System.initial world) withdrawal.Respected inputs) :
    Run.Throughout system.step (System.initial world) withdrawal.Achieved inputs := by
  refine Run.invariant ⟨⟨by simp [System.initial], by simp [System.initial]⟩,
    by simp [System.initial], by simp [System.initial], by simp [System.initial]⟩
    (fun _ _ => achieved_step) respected

end Withdrawal
