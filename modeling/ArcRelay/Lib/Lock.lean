import ArcRelay.Lib.Conduct

/-!
# Exclusive locks

Locks of a pool that are acquired only while they are free and given back only by
the job that has acquired them. Who holds a lock is read off the calls of the jobs,
since the world only knows that it is held. However the jobs interleave, no two of
them hold one lock at a time.
-/

/-- Exclusive locks of a system. -/
structure Locking {Call : Type} {Reply : Call → Type} {α World Operation Event : Type}
    (system : System Reply α World Operation Event) (Lock : Type) where
  acquires : Call → Option Lock
  releases : Call → Option Lock
  held : World → Lock → Prop
  free : ∀ {world call proposal reply after lock},
    system.handle world call proposal = some (reply, after) → acquires call = some lock →
      ¬ held world lock
  taken : ∀ {world call proposal reply after lock},
    system.handle world call proposal = some (reply, after) → acquires call = some lock →
      held after lock
  /-- A lock that is held stays so until it is given back. -/
  kept : ∀ {world call proposal reply after lock},
    system.handle world call proposal = some (reply, after) → held world lock →
      releases call ≠ some lock → held after lock
  /-- Nothing from outside gives a lock back. -/
  disturbed : ∀ {world lock} event, held world lock → held (system.disturb world event) lock

namespace Locking

variable {Call : Type} {Reply : Call → Type} {α World Operation Event Lock : Type}
  [DecidableEq Lock] {system : System Reply α World Operation Event}
  (locking : Locking system Lock)

/-- Whether a job holds a lock after a call, given whether it did before. -/
def next (lock : Lock) (owns : Bool) (moment : Program.Moment World Reply) : Bool :=
  if locking.acquires moment.call = some lock then true
  else if locking.releases moment.call = some lock then false
  else owns

/-- Whether a job with these calls holds the lock. -/
def owns (past : List (Program.Moment World Reply)) (lock : Lock) : Bool :=
  past.foldl (locking.next lock) false

/-- After one more call, the lock is owned as `next` says. -/
theorem owns_concat (past : List (Program.Moment World Reply))
    (moment : Program.Moment World Reply) (lock : Lock) :
    locking.owns (past ++ [moment]) lock = locking.next lock (locking.owns past lock) moment := by
  simp [owns]

variable {past : List (Program.Moment World Reply)}

/-- A call that neither acquires nor gives back. -/
theorem owns_concat_of_other {moment : Program.Moment World Reply} {lock : Lock}
    (acquires : locking.acquires moment.call ≠ some lock)
    (releases : locking.releases moment.call ≠ some lock) :
    locking.owns (past ++ [moment]) lock = locking.owns past lock := by
  rw [owns_concat, next, if_neg acquires, if_neg releases]

/-- Calls that neither acquire nor give back. -/
theorem owns_append {more : List (Program.Moment World Reply)} {lock : Lock}
    (others : ∀ moment ∈ more, locking.acquires moment.call = none ∧
      locking.releases moment.call = none) :
    locking.owns (past ++ more) lock = locking.owns past lock := by
  induction more using List.reverseRecOn with
  | nil => simp
  | append_singleton more last ih =>
    obtain ⟨acquires, releases⟩ := others last (by simp)
    rw [← List.append_assoc, owns_concat_of_other locking (by simp [acquires]) (by simp [releases])]
    exact ih fun moment member => others moment (List.mem_append_left _ member)

/-- A lock that is not given back stays held. -/
theorem owns_append_of_unreleased {more : List (Program.Moment World Reply)} {lock : Lock}
    (owned : locking.owns past lock = true)
    (unreleased : ∀ moment ∈ more, locking.releases moment.call ≠ some lock) :
    locking.owns (past ++ more) lock = true := by
  induction more using List.reverseRecOn with
  | nil => simpa using owned
  | append_singleton more last ih =>
    rw [← List.append_assoc, owns_concat, next, if_neg (unreleased last (by simp)),
      ih fun moment member => unreleased moment (List.mem_append_left _ member)]
    simp

/-- Locks are held by one job at a time, and the world knows of them. -/
structure Exclusive (history : List (Entry Reply World Operation)) (world : World) : Prop where
  held : ∀ index lock, locking.owns (System.momentsOf history index) lock = true →
    locking.held world lock
  unique : ∀ first second lock, locking.owns (System.momentsOf history first) lock = true →
    locking.owns (System.momentsOf history second) lock = true → first = second

variable {locking}

/-- Nothing is held at the start. -/
theorem exclusive_nil (world : World) :
    locking.Exclusive ([] : List (Entry Reply World Operation)) world := by
  refine ⟨fun index lock owned => ?_, fun first second lock owned => ?_⟩
  · cases owned
  · cases owned

/-- A lock that is acquired was held by no job. -/
theorem Exclusive.unowned {history : List (Entry Reply World Operation)} {world after : World}
    (exclusive : locking.Exclusive history world) {call : Call} {proposal reply : Reply call}
    (answered : system.handle world call proposal = some (reply, after)) {lock : Lock}
    (acquires : locking.acquires call = some lock) (index : Nat) :
    locking.owns (System.momentsOf history index) lock = false := by
  cases owned : locking.owns (System.momentsOf history index) lock with
  | false => rfl
  | true => exact absurd (exclusive.held index lock owned) (locking.free answered acquires)

/-- A call keeps the locks exclusive if it gives back only what its job holds. -/
theorem Exclusive.call {history : List (Entry Reply World Operation)} {world after : World}
    (exclusive : locking.Exclusive history world) {index : Nat} {operation : Operation}
    {call : Call} {proposal reply : Reply call}
    (answered : system.handle world call proposal = some (reply, after))
    (disciplined : ∀ lock, locking.releases call = some lock →
      locking.owns (System.momentsOf history index) lock = true) :
    locking.Exclusive (history ++ [⟨index, operation, ⟨world, call, reply⟩⟩]) after := by
  have step : ∀ other lock, locking.owns (System.momentsOf
      (history ++ [⟨index, operation, ⟨world, call, reply⟩⟩]) other) lock = true →
        (locking.acquires call = some lock ∧ other = index) ∨
          (locking.owns (System.momentsOf history other) lock = true ∧
            locking.releases call ≠ some lock) := by
    intro other lock owned
    rw [System.momentsOf_concat] at owned
    split at owned
    · rename_i own
      have own : index = other := own
      subst own
      rw [owns_concat, next] at owned
      split at owned
      · rename_i acquires
        exact Or.inl ⟨acquires, rfl⟩
      · split at owned
        · cases owned
        · rename_i releases
          exact Or.inr ⟨owned, releases⟩
    · rename_i another
      rw [List.append_nil] at owned
      -- what another job holds is not given back here
      exact Or.inr ⟨owned, fun releases =>
        another (exclusive.unique index other lock (disciplined lock releases) owned)⟩
  refine ⟨fun other lock owned => ?_, fun first second lock owned owned' => ?_⟩
  · rcases step other lock owned with ⟨acquires, -⟩ | ⟨before, unreleased⟩
    · exact locking.taken answered acquires
    · exact locking.kept answered (exclusive.held other lock before) unreleased
  · rcases step first lock owned with ⟨acquires, rfl⟩ | ⟨before, -⟩ <;>
      rcases step second lock owned' with ⟨acquires', rfl⟩ | ⟨before', -⟩
    · rfl
    · rw [exclusive.unowned answered acquires] at before'
      cases before'
    · rw [exclusive.unowned answered acquires'] at before
      cases before
    · exact exclusive.unique first second lock before before'

/-- What happens outside keeps the locks exclusive. -/
theorem Exclusive.disturb {history : List (Entry Reply World Operation)} {world : World}
    (exclusive : locking.Exclusive history world) (event : Event) :
    locking.Exclusive history (system.disturb world event) :=
  ⟨fun index lock owned => locking.disturbed event (exclusive.held index lock owned),
    exclusive.unique⟩

end Locking
