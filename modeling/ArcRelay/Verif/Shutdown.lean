import ArcRelay.Lib.Lock
import ArcRelay.Shutdown

/-!
# No socket escapes shutdown

Any number of `shutdown` calls beside any number of calls that create endpoints.
When `shutdown` has the read guard, no creating call is inside its write guard, and
every later one sees the flag. So from then on no endpoint is created, the list has
every endpoint that is alive, and what the list has is closed before `shutdown`
returns.
-/

namespace ArcRelay.Shutdown

open System (momentsOf mem_momentsOf)

/-- A step as a call remembers it. -/
abbrev Moment := Program.Moment World Call.Reply

/-- A step as the history of all calls remembers it. -/
abbrev Record := Entry Call.Reply World Operation

theorem handle_eq_some {world after : World} {call : Call} {proposal reply : call.Reply} :
    handle world call proposal = some (reply, after) ↔
      waits world call = false ∧ answer world call proposal = (reply, after) := by
  simp [handle]

/-- The write guard of `recovery_endpoints`. -/
def locking : Locking system Unit where
  acquires
    | .acquireWrite => some ()
    | _ => none
  releases
    | .releaseWrite => some ()
    | _ => none
  held world _ := world.writing = true
  free {world call proposal reply after lock} answered acquires := by
    obtain ⟨ready, -⟩ := handle_eq_some.mp answered
    cases call <;> cases acquires
    rw [waits, Bool.or_eq_false_iff] at ready
    simp [ready.1]
  taken {world call proposal reply after lock} answered acquires := by
    obtain ⟨-, done⟩ := handle_eq_some.mp answered
    cases call <;> cases acquires
    cases done
    rfl
  kept {world call proposal reply after lock} answered held releases := by
    obtain ⟨-, done⟩ := handle_eq_some.mp answered
    cases call
    case acquireWrite =>
      cases done
      rfl
    case releaseWrite => exact absurd rfl releases
    case create => cases proposal <;> cases done <;> exact held
    all_goals
      cases done
      exact held
  disturbed event held := by
    cases event <;> exact held

/-! ## What the calls guarantee -/

/-- The endpoint is one the call has created. -/
def Created (past : List Moment) (endpoint : EndpointId) : Prop :=
  ∃ world, ⟨world, .create, .ok endpoint⟩ ∈ past

/-- The call has seen that the runtime is not stopped. -/
def Unstopped (past : List Moment) : Prop := ∃ world, ⟨world, .loadStopped, false⟩ ∈ past

/-- The call has made a step. -/
def Made (past : List Moment) (request : Call) : Prop := ∃ moment ∈ past, moment.call = request

/-- The endpoint was dead when it was looked at, or has been closed. -/
def Swept (past : List Moment) (endpoint : EndpointId) : Prop :=
  (∃ world, ⟨world, .upgrade endpoint, false⟩ ∈ past) ∨ Made past (.close endpoint)

/-- What a call guarantees of a step, given those it has made. -/
def Proper (past : List Moment) : Call → Prop
  | .acquireRead => Made past .storeStopped
  | .registered | .upgrade _ => Made past .acquireRead
  | .acquireWrite => ¬ Unstopped past
  | .releaseWrite => locking.owns past () = true ∧ ∀ endpoint, Created past endpoint →
      Made past (.push endpoint) ∨ Made past (.discard endpoint)
  | .create => locking.owns past () = true ∧ Unstopped past
  | .push endpoint | .discard endpoint => Created past endpoint
  | _ => True

/-- What a call has achieved when it returns. -/
def Achieved (operation : Operation) (past : List Moment)
    (result : Except NetworkError (Option EndpointId)) : Prop :=
  match operation with
  | .shutdown => Made past .acquireRead ∧
    ∃ world endpoints, ⟨world, .registered, endpoints⟩ ∈ past ∧
      ∀ endpoint ∈ endpoints, Swept past endpoint
  | .newRecoveryEndpoint | .newInputRelayTunnel =>
      ∀ value, result = .ok value → Made past .create

/-- What is guaranteed of every step. -/
abbrev contract : Program.Contract World Call.Reply := ⟨Proper, fun _ _ => True⟩

variable {past : List Moment} {request : Call}

theorem Made.mono {more : List Moment} (made : Made past request) (subset : past ⊆ more) :
    Made more request := by
  obtain ⟨moment, member, same⟩ := made
  exact ⟨moment, subset member, same⟩

theorem made_concat (past : List Moment) (world : World) (request : Call) (reply : request.Reply) :
    Made (past ++ [⟨world, request, reply⟩]) request :=
  ⟨⟨world, request, reply⟩, by simp, rfl⟩

variable {moment : Moment} {endpoint : EndpointId}

/-- What has been created after a step was created before, or by the step. -/
theorem created_concat :
    Created (past ++ [moment]) endpoint ↔
      Created past endpoint ∨ ∃ world, ⟨world, .create, .ok endpoint⟩ = moment := by
  simp only [Created, List.mem_append, List.mem_singleton, exists_or]

/-- Under the write guard, every endpoint created so far is registered or dropped. -/
structure Inside (past : List Moment) : Prop where
  owned : locking.owns past () = true
  accounted : ∀ endpoint, Created past endpoint →
    Made past (.push endpoint) ∨ Made past (.discard endpoint)

/-- Under the write guard, one endpoint has just been created. -/
structure Pending (past : List Moment) (endpoint : EndpointId) : Prop where
  owned : locking.owns past () = true
  created : Created past endpoint
  only : ∀ other, Created past other → other = endpoint

/-- A step that neither gives the guard back nor creates an endpoint. -/
structure Neutral (moment : Moment) : Prop where
  unlocked : locking.releases moment.call = none
  barren : ∀ world endpoint, (⟨world, .create, .ok endpoint⟩ : Moment) ≠ moment

theorem Neutral.owned {past : List Moment} {moment : Moment} (neutral : Neutral moment)
    (owned : locking.owns past () = true) : locking.owns (past ++ [moment]) () = true := by
  rw [Locking.owns_concat, Locking.next, neutral.unlocked, owned]
  simp

theorem Neutral.created {past : List Moment} {moment : Moment} (neutral : Neutral moment)
    {endpoint : EndpointId} (created : Created (past ++ [moment]) endpoint) :
    Created past endpoint := by
  rcases created_concat.mp created with before | ⟨world, now⟩
  · exact before
  · exact absurd now (neutral.barren world endpoint)

theorem Inside.concat (inside : Inside past) (neutral : Neutral moment) :
    Inside (past ++ [moment]) := by
  refine ⟨neutral.owned inside.owned, fun endpoint created => ?_⟩
  exact (inside.accounted endpoint (neutral.created created)).imp
    (fun made => made.mono (List.subset_append_left _ _))
    (fun made => made.mono (List.subset_append_left _ _))

theorem Pending.concat (pending : Pending past endpoint) (neutral : Neutral moment) :
    Pending (past ++ [moment]) endpoint :=
  ⟨neutral.owned pending.owned, created_concat.mpr (Or.inl pending.created),
    fun other created => pending.only other (neutral.created created)⟩

theorem Pending.account (pending : Pending past endpoint) (neutral : Neutral moment)
    (accounts : moment.call = .push endpoint ∨ moment.call = .discard endpoint) :
    Inside (past ++ [moment]) := by
  refine ⟨neutral.owned pending.owned, fun other created => ?_⟩
  obtain rfl := pending.only other (neutral.created created)
  exact accounts.imp (fun pushes => ⟨moment, by simp, pushes⟩)
    (fun discards => ⟨moment, by simp, discards⟩)

theorem Inside.create (owned : locking.owns past () = true)
    (fresh : ∀ endpoint, ¬ Created past endpoint) (world : World) (endpoint : EndpointId) :
    Pending (past ++ [⟨world, .create, .ok endpoint⟩]) endpoint := by
  refine ⟨?_, ⟨world, by simp⟩, fun other created => ?_⟩
  · rw [Locking.owns_concat, owned]
    rfl
  · rcases created_concat.mp created with before | ⟨_, now⟩
    · exact absurd before (fresh other)
    · cases now
      rfl

/-- What both creating functions do under the write guard. -/
theorem ensures_register (owned : locking.owns past () = true)
    (fresh : ∀ endpoint, ¬ Created past endpoint) :
    register.run.Ensures contract
      (fun now result => Inside now ∧ ∀ value, result = .ok value → Made now .create) past := by
  have inside : Inside past := ⟨owned, fun endpoint created => absurd created (fresh endpoint)⟩
  refine ⟨trivial, fun first stopped _ => ?_⟩
  have neutral : Neutral ⟨first, .loadStopped, stopped⟩ := ⟨rfl, nofun⟩
  have loaded := inside.concat neutral
  cases stopped with
  | true => exact ⟨loaded, nofun⟩
  | false =>
    refine ⟨⟨loaded.owned, first, by simp⟩, fun second reply _ => ?_⟩
    cases reply with
    | error error => exact ⟨loaded.concat ⟨rfl, nofun⟩, nofun⟩
    | ok endpoint =>
      have pending := Inside.create loaded.owned
        (fun other created => fresh other (neutral.created created)) second endpoint
      have made := made_concat (past ++ [⟨first, .loadStopped, false⟩]) second .create
        (.ok endpoint)
      refine ⟨trivial, fun third result _ => ?_⟩
      have plain : Neutral ⟨third, .configure, result⟩ := ⟨rfl, nofun⟩
      have configured := pending.concat plain
      cases result with
      | error error =>
        exact ⟨configured.created, fun fourth _ _ =>
          ⟨configured.account ⟨rfl, nofun⟩ (Or.inr rfl), nofun⟩⟩
      | ok done =>
        refine ⟨trivial, fun fourth _ _ => ?_⟩
        have plain : Neutral ⟨fourth, .retain, ()⟩ := ⟨rfl, nofun⟩
        have retained := configured.concat plain
        refine ⟨retained.created, fun fifth _ _ =>
          ⟨retained.account ⟨rfl, nofun⟩ (Or.inl rfl), fun _ _ => ?_⟩⟩
        have still := made.mono (List.subset_append_left _ [⟨third, .configure, .ok done⟩])
        have yet := still.mono (List.subset_append_left _ [⟨fourth, .retain, ()⟩])
        exact yet.mono (List.subset_append_left _ _)

/-- The write guard is taken and given back around the registration. -/
theorem ensures_withWriteGuard (unstopped : ¬ Unstopped past)
    (fresh : ∀ endpoint, ¬ Created past endpoint) :
    (withWriteGuard register).run.Ensures contract
      (fun now result => ∀ value, result = .ok value → Made now .create) past := by
  refine ⟨unstopped, fun first _ _ => ?_⟩
  have owned : locking.owns (past ++ [⟨first, .acquireWrite, ()⟩]) () = true := by
    rw [Locking.owns_concat]
    rfl
  have unmade : ∀ endpoint, ¬ Created (past ++ [⟨first, .acquireWrite, ()⟩]) endpoint := by
    intro endpoint created
    rcases created_concat.mp created with before | ⟨_, now⟩
    · exact fresh endpoint before
    · cases now
  have taken : (Async.result register).run.Ensures contract (fun now result => Inside now ∧
      ∀ inner, result = .ok inner → ∀ value, inner = .ok value → Made now .create)
      (past ++ [⟨first, .acquireWrite, ()⟩]) := by
    refine Program.ensures_bind (ensures_register owned unmade) fun now result known => ?_
    refine ⟨known.1, fun inner same value => ?_⟩
    cases same
    exact known.2 value
  have released : (do
      let result ← Async.result register
      step .releaseWrite
      Async.ofExcept result : Action EndpointId).run.Ensures contract
        (fun now result => ∀ value, result = .ok value → Made now .create)
        (past ++ [⟨first, .acquireWrite, ()⟩]) := by
    refine Program.ensures_bind taken fun now result known => ?_
    cases result with
    | error error => exact nofun
    | ok result =>
      refine ⟨⟨known.1.owned, known.1.accounted⟩, fun second _ _ value same => ?_⟩
      exact (known.2 result rfl value same).mono (List.subset_append_left _ _)
  exact released

/-- A creating call that returns an endpoint has created one. -/
theorem ensures_creating (operation : Operation) (creates : operation.creates = true) :
    (action operation).run.Ensures contract
      (fun now result => ∀ value, result = .ok value → Made now .create) [] := by
  have mapped : ∀ {past : List Moment} {program : Action EndpointId},
      program.run.Ensures contract
        (fun now result => ∀ value, result = .ok value → Made now .create) past →
      (some <$> program).run.Ensures contract
        (fun now result => ∀ value, result = .ok value → Made now .create) past := by
    intro past program ensures
    refine Program.ensures_bind ensures fun now result known => ?_
    cases result with
    | error error => exact nofun
    | ok endpoint => exact fun _ _ => known endpoint rfl
  cases operation with
  | shutdown => cases creates
  | newRecoveryEndpoint =>
    refine mapped ⟨trivial, fun first reply _ => ?_⟩
    cases reply with
    | error error => exact nofun
    | ok done =>
      exact ensures_withWriteGuard (by simp [Unstopped]) (by simp [Created])
  | newInputRelayTunnel =>
    refine mapped ⟨trivial, fun first reply _ => ?_⟩
    cases reply with
    | error error => exact nofun
    | ok done =>
      refine ⟨trivial, fun second reply _ => ?_⟩
      cases reply with
      | error error => exact nofun
      | ok done =>
        exact ensures_withWriteGuard (by simp [Unstopped]) (by simp [Created])

/-- The loop of `shutdown` sweeps every endpoint it is given. -/
theorem ensures_closeAll (reading : Made past .acquireRead) (endpoints : List EndpointId) :
    (closeAll endpoints).run.Ensures contract (fun now result => result = .ok () ∧ past ⊆ now ∧
      ∀ endpoint ∈ endpoints, Swept now endpoint) past := by
  induction endpoints generalizing past with
  | nil => exact ⟨rfl, List.Subset.refl _, by simp⟩
  | cons endpoint rest ih =>
    refine ⟨reading, fun first upgraded _ => ?_⟩
    have swept : ∀ now : List Moment, Swept now endpoint → past ⊆ now →
        (closeAll rest).run.Ensures contract (fun later result => result = .ok () ∧ past ⊆ later ∧
          ∀ other ∈ endpoint :: rest, Swept later other) now := by
      intro now known grown
      refine (ih (reading.mono grown)).mono fun later result after => ?_
      obtain ⟨succeeded, further, others⟩ := after
      refine ⟨succeeded, List.Subset.trans grown further, fun other member => ?_⟩
      rcases List.mem_cons.mp member with rfl | inside
      · rcases known with ⟨world, dead⟩ | closed
        · exact Or.inl ⟨world, further dead⟩
        · exact Or.inr (closed.mono further)
      · exact others other inside
    cases upgraded with
    | false => exact swept _ (Or.inl ⟨first, by simp⟩) (List.subset_append_left _ _)
    | true =>
      refine ⟨trivial, fun second _ _ => ?_⟩
      exact swept _ (Or.inr (made_concat _ _ _ _))
        (List.Subset.trans (List.subset_append_left _ _) (List.subset_append_left _ _))

/-- `shutdown` has swept every endpoint it found registered. -/
theorem ensures_shutdown :
    (action .shutdown).run.Ensures contract (Achieved .shutdown) [] := by
  refine ⟨trivial, fun first _ _ => ⟨trivial, fun second _ _ =>
    ⟨⟨⟨first, .storeStopped, ()⟩, by simp, rfl⟩, fun third _ _ => ?_⟩⟩⟩
  have reading : Made [⟨first, .storeStopped, ()⟩, ⟨second, .closeMain, ()⟩,
      ⟨third, .acquireRead, ()⟩] .acquireRead := ⟨⟨third, .acquireRead, ()⟩, by simp, rfl⟩
  refine ⟨reading, fun fourth endpoints _ => ?_⟩
  have listed : Made [⟨first, .storeStopped, ()⟩, ⟨second, .closeMain, ()⟩,
      ⟨third, .acquireRead, ()⟩, ⟨fourth, .registered, endpoints⟩] .acquireRead :=
    ⟨⟨third, .acquireRead, ()⟩, by simp, rfl⟩
  have ended : ((fun _ => none) <$> (do
      closeAll endpoints
      step .releaseRead) : Action (Option EndpointId)).run.Ensures contract (Achieved .shutdown)
        [⟨first, .storeStopped, ()⟩, ⟨second, .closeMain, ()⟩, ⟨third, .acquireRead, ()⟩,
          ⟨fourth, .registered, endpoints⟩] := by
    have closed : (do
        closeAll endpoints
        step .releaseRead : Action Unit).run.Ensures contract
          (fun now _ => Achieved .shutdown now (.ok none))
          [⟨first, .storeStopped, ()⟩, ⟨second, .closeMain, ()⟩, ⟨third, .acquireRead, ()⟩,
            ⟨fourth, .registered, endpoints⟩] := by
      refine Program.ensures_bind (ensures_closeAll listed endpoints) fun now result known => ?_
      obtain ⟨rfl, grown, swept⟩ := known
      refine ⟨trivial, fun fifth _ _ => ?_⟩
      have later : now ⊆ now ++ [⟨fifth, .releaseRead, ()⟩] := List.subset_append_left _ _
      refine ⟨(listed.mono grown).mono later, fourth, endpoints,
        later (grown (by simp)), fun endpoint member => ?_⟩
      rcases swept endpoint member with ⟨world, dead⟩ | closed
      · exact Or.inl ⟨world, later dead⟩
      · exact Or.inr (closed.mono later)
    refine Program.ensures_bind closed fun now result known => ?_
    cases result with
    | ok done => exact known
    | error error => exact known
  exact ended

/-- The calls conduct themselves well. -/
def conduct : Conduct system where
  guarantee _ := Proper
  post := Achieved
  programs
    | .shutdown => ensures_shutdown
    | .newRecoveryEndpoint => ensures_creating .newRecoveryEndpoint rfl
    | .newInputRelayTunnel => ensures_creating .newInputRelayTunnel rfl

/-! ## What a step does -/

section Steps

variable {world after : World} {call : Call} {proposal reply : call.Reply}
  (done : answer world call proposal = (reply, after))

include done

theorem answer_stopped (stopped : world.stopped = true) : after.stopped = true := by
  cases call
  case create => cases proposal <;> cases done <;> exact stopped
  all_goals
    cases done
    first | rfl | exact stopped

variable {endpoint : EndpointId}

theorem answer_closed (closed : world.closed endpoint = true ∨ call = .close endpoint) :
    after.closed endpoint = true := by
  cases call
  case create => cases proposal <;> cases done <;> exact closed.resolve_right nofun
  case close other =>
    cases done
    rcases closed with before | now
    · simp only [Function.update_apply, before, ite_self]
    · cases now
      simp
  all_goals
    cases done
    exact closed.resolve_right nofun

/-- Only `create` brings an endpoint to life, a new one. -/
theorem answer_alive :
    (after.created = world.created ∧
      ∀ endpoint, after.alive endpoint = true → world.alive endpoint = true) ∨
    ((⟨world, call, reply⟩ : Moment) = ⟨world, .create, .ok world.created⟩ ∧
      after.created = world.created + 1 ∧ ∀ endpoint, after.alive endpoint = true →
        world.alive endpoint = true ∨ endpoint = world.created) := by
  cases call
  case create =>
    cases proposal with
    | error error =>
      cases done
      exact Or.inl ⟨rfl, fun _ alive => alive⟩
    | ok number =>
      cases done
      refine Or.inr ⟨rfl, rfl, fun endpoint alive => ?_⟩
      by_cases new : endpoint = world.created
      · exact Or.inr new
      · exact Or.inl (by simpa [Function.update_apply, new] using alive)
  case discard other =>
    cases done
    refine Or.inl ⟨rfl, fun endpoint alive => ?_⟩
    by_cases dropped : endpoint = other
    · simp [dropped] at alive
    · simpa [Function.update_apply, dropped] using alive
  all_goals
    cases done
    exact Or.inl ⟨rfl, fun _ alive => alive⟩

/-- An endpoint that is alive stays in the list, and one that is pushed is put there. -/
theorem answer_recorded (alive : world.alive endpoint = true)
    (known : endpoint ∈ world.recoveryEndpoints ∨ call = .push endpoint) :
    endpoint ∈ after.recoveryEndpoints := by
  cases call
  case create => cases proposal <;> cases done <;> exact known.resolve_right nofun
  case retain =>
    cases done
    exact List.mem_filter.mpr ⟨known.resolve_right nofun, alive⟩
  case push other =>
    cases done
    rcases known with before | now
    · exact List.mem_append_left _ before
    · cases now
      simp
  all_goals
    cases done
    exact known.resolve_right nofun

/-- The endpoint that `create` returns is the next one. -/
theorem answer_create {before : World}
    (creates : (⟨world, call, reply⟩ : Moment) = ⟨before, .create, .ok endpoint⟩) :
    endpoint = world.created ∧ after.created = world.created + 1 := by
  cases creates
  cases proposal with
  | error error => cases done
  | ok number =>
    cases done
    exact ⟨rfl, rfl⟩

theorem answer_discarded (discards : call = .discard endpoint) :
    after.created = world.created ∧ after.alive endpoint = false := by
  subst discards
  cases done
  exact ⟨rfl, Function.update_self _ _ _⟩

end Steps

/-! ## What holds however the calls interleave -/

/-- Some call has made the step. -/
def Happened (history : List Record) (request : Call) : Prop :=
  ∃ entry ∈ history, entry.moment.call = request

/-- The endpoint was created by a call that holds the write guard or has accounted for it. -/
def Accounted (history : List Record) (endpoint : EndpointId) : Prop :=
  ∃ index, Created (momentsOf history index) endpoint ∧
    (locking.owns (momentsOf history index) () = true ∨
      Happened history (.push endpoint) ∨ Happened history (.discard endpoint))

/-- What holds of the world, given the steps made so far. -/
structure Safe (history : List Record) (world : World) : Prop where
  exclusive : locking.Exclusive history world
  stopped : Happened history .storeStopped → world.stopped = true
  numbered : ∀ index endpoint, Created (momentsOf history index) endpoint →
    endpoint < world.created
  accounted : ∀ endpoint < world.created, Accounted history endpoint
  /-- An endpoint that was pushed and is alive is in the list. -/
  pushed : ∀ endpoint, Happened history (.push endpoint) → endpoint < world.created ∧
    (world.alive endpoint = true → endpoint ∈ world.recoveryEndpoints)
  discarded : ∀ endpoint, Happened history (.discard endpoint) → endpoint < world.created ∧
    world.alive endpoint = false
  closed : ∀ endpoint, Happened history (.close endpoint) → world.closed endpoint = true
  /-- Once `shutdown` has the read guard, whoever holds the write guard has not seen the flag
  unset. -/
  sealed : Happened history .acquireRead → ∀ index,
    locking.owns (momentsOf history index) () = true →
      ¬ Unstopped (momentsOf history index)
  /-- What `shutdown` read has every endpoint that is alive. -/
  listed : ∀ entry ∈ history, ∀ before endpoints,
    entry.moment = ⟨before, .registered, endpoints⟩ →
      ∀ endpoint < world.created, world.alive endpoint = true → endpoint ∈ endpoints
  dead : ∀ entry ∈ history, ∀ before endpoint,
    entry.moment = ⟨before, .upgrade endpoint, false⟩ → world.alive endpoint = false
  /-- Nothing was created after `shutdown` had the read guard. -/
  quiet : ∀ before entry later, history = before ++ entry :: later →
    entry.moment.call = .create → ¬ Happened before .acquireRead
  /-- What came after the flag was set came with the flag set. -/
  halted : ∀ before entry later, history = before ++ entry :: later →
    Happened before .storeStopped → entry.moment.world.stopped = true

variable {entry : Record}

theorem happened_concat {history : List Record} :
    Happened (history ++ [entry]) request ↔
      Happened history request ∨ entry.moment.call = request := by
  simp only [Happened, List.mem_append, List.mem_singleton, or_and_right, exists_or, exists_eq_left]

theorem happened_of_made {history : List Record} {index : Nat}
    (made : Made (momentsOf history index) request) : Happened history request := by
  obtain ⟨moment, member, same⟩ := made
  obtain ⟨entry, recorded, -, rfl⟩ := mem_momentsOf.mp member
  exact ⟨entry, recorded, same⟩

theorem created_later {history : List Record} {index : Nat}
    (created : Created (momentsOf history index) endpoint) (entry : Record) :
    Created (momentsOf (history ++ [entry]) index) endpoint := by
  obtain ⟨world, member⟩ := created
  exact ⟨world, by rw [System.momentsOf_append]; exact List.mem_append_left _ member⟩

/-- What a call has created after a step it had before, or the step is its own. -/
theorem created_step {history : List Record} {index : Nat}
    (created : Created (momentsOf (history ++ [entry]) index) endpoint) :
    Created (momentsOf history index) endpoint ∨
      ∃ world, entry.moment = ⟨world, .create, .ok endpoint⟩ := by
  rw [System.momentsOf_concat] at created
  split at created
  · exact (created_concat.mp created).imp id fun ⟨world, same⟩ => ⟨world, same.symm⟩
  · rw [List.append_nil] at created
    exact Or.inl created

theorem unstopped_of_created {history : List Record} (guaranteed : conduct.Guaranteed history)
    {index : Nat} (created : Created (momentsOf history index) endpoint) :
    Unstopped (momentsOf history index) := by
  obtain ⟨world, member⟩ := created
  obtain ⟨entry, recorded, rfl, same⟩ := mem_momentsOf.mp member
  obtain ⟨before, later, rfl⟩ := List.append_of_mem recorded
  have proper : Proper (momentsOf before entry.index) entry.moment.call :=
    guaranteed before entry later rfl
  rw [same] at proper
  obtain ⟨seen, remembered⟩ := proper.2
  exact ⟨seen, by rw [System.momentsOf_append]; exact List.mem_append_left _ remembered⟩

/-- Once `shutdown` has the read guard, every endpoint that is alive is in the list. -/
theorem Safe.recorded {history : List Record} {world : World} (safe : Safe history world)
    (guaranteed : conduct.Guaranteed history) (reading : Happened history .acquireRead)
    (known : endpoint < world.created) (alive : world.alive endpoint = true) :
    endpoint ∈ world.recoveryEndpoints := by
  obtain ⟨index, created, owned | pushed | discarded⟩ := safe.accounted endpoint known
  · exact absurd (unstopped_of_created guaranteed created) (safe.sealed reading index owned)
  · exact (safe.pushed endpoint pushed).2 alive
  · rw [(safe.discarded endpoint discarded).2] at alive
    cases alive

/-- What was read of the list, or looked at in it, was so under a read guard. -/
theorem reading_of_entry {history : List Record} (guaranteed : conduct.Guaranteed history)
    (member : entry ∈ history)
    (reads : ∀ past, Proper past entry.moment.call → Made past .acquireRead) :
    Happened history .acquireRead := by
  obtain ⟨before, later, rfl⟩ := List.append_of_mem member
  obtain ⟨moment, remembered, same⟩ := reads _ (guaranteed before entry later rfl)
  obtain ⟨earlier, recorded, -, rfl⟩ := mem_momentsOf.mp remembered
  exact ⟨earlier, List.mem_append_left _ recorded, same⟩

/-- With `shutdown` under way the flag is set. -/
theorem stopped_of_reading {history : List Record} (guaranteed : conduct.Guaranteed history)
    (reading : Happened history .acquireRead) : Happened history .storeStopped := by
  obtain ⟨entry, member, same⟩ := reading
  obtain ⟨before, later, rfl⟩ := List.append_of_mem member
  have proper : Proper (momentsOf before entry.index) entry.moment.call :=
    guaranteed before entry later rfl
  rw [same] at proper
  obtain ⟨earlier, recorded, stores⟩ := happened_of_made proper
  exact ⟨earlier, List.mem_append_left _ recorded, stores⟩

/-- Nothing is created once `shutdown` has the read guard. -/
theorem Safe.barren {history : List Record} {world : World} (safe : Safe history world)
    {index : Nat} (proper : Proper (momentsOf history index) .create) :
    ¬ Happened history .acquireRead :=
  fun reading => safe.sealed reading index proper.1 proper.2

/-- Who holds the write guard after a step held it before, or has just acquired it. -/
theorem owned_step {history : List Record} {index : Nat}
    (owned : locking.owns (momentsOf (history ++ [entry]) index) () = true) :
    locking.owns (momentsOf history index) () = true ∨
      (entry.index = index ∧ entry.moment.call = .acquireWrite) := by
  rw [System.momentsOf_concat] at owned
  split at owned
  · rename_i own
    rw [Locking.owns_concat, Locking.next] at owned
    split at owned
    · rename_i acquires
      obtain ⟨_, _, world, call, reply⟩ := entry
      cases call <;> cases acquires
      exact Or.inr ⟨own, rfl⟩
    · split at owned
      · cases owned
      · exact Or.inl owned
  · rw [List.append_nil] at owned
    exact Or.inl owned

theorem owned_kept {history : List Record} {index : Nat}
    (owned : locking.owns (momentsOf history index) () = true)
    (kept : entry.index = index → entry.moment.call ≠ .releaseWrite) :
    locking.owns (momentsOf (history ++ [entry]) index) () = true := by
  rw [System.momentsOf_concat]
  split
  · rename_i own
    rw [Locking.owns_concat, Locking.next]
    split
    · rfl
    · split
      · rename_i releases
        obtain ⟨_, _, world, call, reply⟩ := entry
        cases call <;> cases releases
        exact absurd rfl (kept own)
      · exact owned
  · rw [List.append_nil]
    exact owned

/-- A call that has seen the flag unset after a step had before, or has just loaded it. -/
theorem unstopped_step {history : List Record} {index : Nat}
    (unstopped : Unstopped (momentsOf (history ++ [entry]) index)) :
    Unstopped (momentsOf history index) ∨
      ∃ world, entry.moment = ⟨world, .loadStopped, false⟩ := by
  obtain ⟨world, member⟩ := unstopped
  rw [System.momentsOf_concat] at member
  rcases List.mem_append.mp member with before | now
  · exact Or.inl ⟨world, before⟩
  · split at now
    · exact Or.inr ⟨world, (List.mem_singleton.mp now).symm⟩
    · cases now

section Keeps

variable {index : Nat} {operation : Operation} {history : List Record} {world after : World}
  {call : Call} {proposal reply : call.Reply}

/-- An endpoint stays accounted for. -/
theorem Accounted.concat {endpoint : EndpointId} (accounted : Accounted history endpoint)
    (proper : Proper (momentsOf history index) call) :
    Accounted (history ++ [⟨index, operation, ⟨world, call, reply⟩⟩]) endpoint := by
  obtain ⟨creator, created, owned | pushed | discarded⟩ := accounted
  · refine ⟨creator, created_later created _, ?_⟩
    by_cases released : index = creator ∧ call = .releaseWrite
    · -- the guard is given back only when everything is accounted for
      obtain ⟨rfl, rfl⟩ := released
      exact Or.inr ((proper.2 endpoint created).imp
        (fun made => happened_concat.mpr (Or.inl (happened_of_made made)))
        (fun made => happened_concat.mpr (Or.inl (happened_of_made made))))
    · exact Or.inl (owned_kept owned fun own releases => released ⟨own, releases⟩)
  · exact ⟨creator, created_later created _, Or.inr (Or.inl (happened_concat.mpr (Or.inl pushed)))⟩
  · exact ⟨creator, created_later created _,
      Or.inr (Or.inr (happened_concat.mpr (Or.inl discarded)))⟩

theorem accounted_call (safe : Safe history world) (proper : Proper (momentsOf history index) call)
    (done : answer world call proposal = (reply, after)) :
    ∀ endpoint < after.created,
      Accounted (history ++ [⟨index, operation, ⟨world, call, reply⟩⟩]) endpoint := by
  intro endpoint known
  rcases answer_alive done with ⟨same, -⟩ | ⟨creates, more, -⟩
  · exact (safe.accounted endpoint (same ▸ known)).concat proper
  · by_cases old : endpoint < world.created
    · exact (safe.accounted endpoint old).concat proper
    · obtain rfl : endpoint = world.created := by omega
      cases creates
      refine ⟨index, ?_, Or.inl (owned_kept proper.1 fun _ => nofun)⟩
      exact ⟨world, by rw [System.momentsOf_concat, if_pos rfl]; simp⟩

theorem created_le (done : answer world call proposal = (reply, after)) :
    world.created ≤ after.created := by
  rcases answer_alive done with ⟨same, -⟩ | ⟨-, more, -⟩ <;> omega

theorem alive_before (done : answer world call proposal = (reply, after)) {endpoint : EndpointId}
    (known : endpoint < world.created) (alive : after.alive endpoint = true) :
    world.alive endpoint = true := by
  rcases answer_alive done with ⟨-, before⟩ | ⟨-, -, before⟩
  · exact before endpoint alive
  · exact (before endpoint alive).resolve_right (Nat.ne_of_lt known)

/-- Once `shutdown` has the read guard, a step neither creates nor revives an endpoint. -/
theorem Safe.still (safe : Safe history world) (proper : Proper (momentsOf history index) call)
    (done : answer world call proposal = (reply, after)) (reading : Happened history .acquireRead) :
    after.created = world.created ∧
      ∀ endpoint, after.alive endpoint = true → world.alive endpoint = true := by
  rcases answer_alive done with same | ⟨creates, -⟩
  · exact same
  · cases creates
    exact absurd reading (safe.barren proper)

/-- Whoever holds the write guard has not seen the flag unset, once `shutdown` has the read
guard. -/
theorem sealed_call (safe : Safe history world) (guaranteed : conduct.Guaranteed history)
    (proper : Proper (momentsOf history index) call)
    (answered : handle world call proposal = some (reply, after))
    (reading : Happened (history ++ [⟨index, operation, ⟨world, call, reply⟩⟩]) .acquireRead)
    (owner : Nat) (owned : locking.owns (momentsOf
      (history ++ [⟨index, operation, ⟨world, call, reply⟩⟩]) owner) () = true) :
    ¬ Unstopped (momentsOf
      (history ++ [⟨index, operation, ⟨world, call, reply⟩⟩]) owner) := by
  obtain ⟨ready, done⟩ := handle_eq_some.mp answered
  intro unstopped
  rcases happened_concat.mp reading with before | now
  · rcases unstopped_step unstopped with seen | ⟨_, loads⟩
    · rcases owned_step owned with held | ⟨rfl, acquires⟩
      · exact safe.sealed before owner held seen
      · have acquires : call = .acquireWrite := acquires
        subst acquires
        exact proper seen
    · -- the flag is set, so it is not loaded unset
      cases loads
      have stopped := safe.stopped (stopped_of_reading guaranteed before)
      simp only [answer, Prod.mk.injEq] at done
      rw [stopped] at done
      cases done.1
  · have reads : call = .acquireRead := now
    subst reads
    rcases owned_step owned with held | ⟨-, acquires⟩
    · have writing : world.writing = true := safe.exclusive.held owner () held
      have free : world.writing = false := ready
      rw [writing] at free
      cases free
    · cases acquires

/-- Every step keeps what holds. -/
theorem safe_call (guaranteed : conduct.Guaranteed history) (safe : Safe history world)
    (proper : Proper (momentsOf history index) call)
    (answered : handle world call proposal = some (reply, after)) :
    Safe (history ++ [⟨index, operation, ⟨world, call, reply⟩⟩]) after := by
  obtain ⟨ready, done⟩ := handle_eq_some.mp answered
  constructor
  case exclusive =>
    refine safe.exclusive.call answered fun lock releases => ?_
    cases call <;> cases releases
    exact proper.1
  case stopped =>
    intro stored
    rcases happened_concat.mp stored with before | now
    · exact answer_stopped done (safe.stopped before)
    · have stores : call = .storeStopped := now
      subst stores
      cases done
      rfl
  case numbered =>
    intro creator endpoint created
    rcases created_step created with before | ⟨_, now⟩
    · exact (safe.numbered creator endpoint before).trans_le (created_le done)
    · obtain ⟨rfl, more⟩ := answer_create done now
      rw [more]
      exact Nat.lt_succ_self _
  case accounted => exact accounted_call safe proper done
  case pushed =>
    intro endpoint pushed
    rcases happened_concat.mp pushed with before | now
    · obtain ⟨known, recorded⟩ := safe.pushed endpoint before
      refine ⟨known.trans_le (created_le done), fun alive => ?_⟩
      have earlier := alive_before done known alive
      exact answer_recorded done earlier (Or.inl (recorded earlier))
    · have pushes : call = .push endpoint := now
      subst pushes
      have known := safe.numbered index endpoint proper
      refine ⟨known.trans_le (created_le done), fun alive => ?_⟩
      exact answer_recorded done (alive_before done known alive) (Or.inr rfl)
  case discarded =>
    intro endpoint discarded
    rcases happened_concat.mp discarded with before | now
    · obtain ⟨known, dead⟩ := safe.discarded endpoint before
      refine ⟨known.trans_le (created_le done), Bool.eq_false_iff.mpr fun alive => ?_⟩
      rw [alive_before done known alive] at dead
      cases dead
    · have discards : call = .discard endpoint := now
      subst discards
      exact ⟨(safe.numbered index endpoint proper).trans_le (created_le done),
        (answer_discarded done rfl).2⟩
  case closed =>
    intro endpoint closes
    exact answer_closed done ((happened_concat.mp closes).imp (safe.closed endpoint) id)
  case sealed => exact sealed_call safe guaranteed proper answered
  case listed =>
    intro entry member before endpoints same endpoint known alive
    rcases List.mem_concat_iff.mp member with earlier | rfl
    · have reading := reading_of_entry guaranteed earlier fun past => by
        rw [same]
        exact id
      obtain ⟨created, living⟩ := safe.still proper done reading
      exact safe.listed entry earlier before endpoints same endpoint (created ▸ known)
        (living endpoint alive)
    · cases same
      cases done
      exact safe.recorded guaranteed (happened_of_made proper) known alive
  case dead =>
    intro entry member before endpoint same
    rcases List.mem_concat_iff.mp member with earlier | rfl
    · have reading := reading_of_entry guaranteed earlier fun past => by
        rw [same]
        exact id
      obtain ⟨-, living⟩ := safe.still proper done reading
      refine Bool.eq_false_iff.mpr fun alive => ?_
      have dead := safe.dead entry earlier before endpoint same
      rw [living endpoint alive] at dead
      cases dead
    · cases same
      simp only [answer, Prod.mk.injEq] at done
      exact done.2 ▸ done.1
  case quiet =>
    intro before entry later split creates
    rcases List.split_concat split with ⟨rfl, rfl, -⟩ | ⟨later', -, same⟩
    · have creates : call = .create := creates
      subst creates
      exact safe.barren proper
    · exact safe.quiet before entry later' same creates
  case halted =>
    intro before entry later split stored
    rcases List.split_concat split with ⟨rfl, rfl, -⟩ | ⟨later', -, same⟩
    · exact safe.stopped stored
    · exact safe.halted before entry later' same stored

end Keeps

/-- What happens outside keeps what holds. -/
theorem safe_disturb {history : List Record} {world : World} (event : Event)
    (safe : Safe history world) : Safe history (disturb world event) := by
  have created : (disturb world event).created = world.created := by cases event <;> rfl
  have recorded : (disturb world event).recoveryEndpoints = world.recoveryEndpoints := by
    cases event <;> rfl
  have living : ∀ endpoint, (disturb world event).alive endpoint = true →
      world.alive endpoint = true := by
    intro endpoint alive
    cases event with
    | dropped other =>
      by_cases same : endpoint = other
      · simp [disturb, same] at alive
      · simpa [disturb, Function.update_apply, same] using alive
    | closed other => exact alive
  have dead : ∀ endpoint, world.alive endpoint = false →
      (disturb world event).alive endpoint = false := by
    intro endpoint dead
    refine Bool.eq_false_iff.mpr fun alive => ?_
    rw [living endpoint alive] at dead
    cases dead
  refine ⟨safe.exclusive.disturb event, fun stored => ?_, ?_, ?_, fun endpoint pushed => ?_,
    fun endpoint discarded => ?_, fun endpoint closes => ?_, safe.sealed,
    fun entry member before endpoints same endpoint known alive => ?_,
    fun entry member before endpoint same => ?_, safe.quiet, safe.halted⟩
  · cases event <;> exact safe.stopped stored
  · rw [created]
    exact safe.numbered
  · rw [created]
    exact safe.accounted
  · rw [created, recorded]
    obtain ⟨known, present⟩ := safe.pushed endpoint pushed
    exact ⟨known, fun alive => present (living endpoint alive)⟩
  · rw [created]
    obtain ⟨known, gone⟩ := safe.discarded endpoint discarded
    exact ⟨known, dead endpoint gone⟩
  · have closed := safe.closed endpoint closes
    cases event with
    | dropped other => exact closed
    | closed other => simp [disturb, Function.update_apply, closed]
  · exact safe.listed entry member before endpoints same endpoint (created ▸ known)
      (living endpoint alive)
  · exact dead endpoint (safe.dead entry member before endpoint same)

/-! ## Runs -/

/-- The runtime with its calls. -/
abbrev Calls := Pool Call.Reply (Except NetworkError (Option EndpointId)) World Operation

/-- The runtime after a run. -/
abbrev after (inputs : List (Pool.Input Call.Reply Operation Event)) : Calls :=
  Run.exec system.step (System.initial .bound) inputs

theorem safe_bound : Safe [] World.bound := by
  refine ⟨Locking.exclusive_nil _, ?_, ?_, ?_, ?_, ?_, ?_, ?_, ?_, ?_, ?_, ?_⟩
  · rintro ⟨entry, member, -⟩
    cases member
  · rintro index endpoint ⟨world, member⟩
    cases member
  · exact fun endpoint known => absurd known (Nat.not_lt_zero _)
  · rintro endpoint ⟨entry, member, -⟩
    cases member
  · rintro endpoint ⟨entry, member, -⟩
    cases member
  · rintro endpoint ⟨entry, member, -⟩
    cases member
  · rintro ⟨entry, member, -⟩
    cases member
  · intro entry member
    cases member
  · intro entry member
    cases member
  all_goals
    intro before entry later split
    cases before <;> cases split

/-- However the calls interleave, they conduct themselves well and the world is safe. -/
theorem safe_run (inputs : List (Pool.Input Call.Reply Operation Event)) :
    conduct.Kept (after inputs) ∧ Safe (after inputs).history (after inputs).world :=
  conduct.invariant_always Safe safe_bound safe_call safe_disturb inputs

/-- A `shutdown` has returned. -/
def Down (calls : Calls) : Prop :=
  ∃ index result, System.outcome calls index = some (.shutdown, result)

/-- Every endpoint that was created and is alive has been closed. -/
def AllClosed (calls : Calls) : Prop :=
  ∀ endpoint < calls.world.created, calls.world.alive endpoint = true →
    calls.world.closed endpoint = true

/-- Every creating call that was started later has created nothing, and fails if it returns. -/
def Refused (earlier later : Calls) : Prop :=
  ∀ index job, earlier.jobs.length ≤ index → later.jobs[index]? = some job →
    job.operation.creates = true → ¬ Made job.past .create ∧
      ∀ result, job.rest = .done result → ∃ error, result = .error error

/-- Every creating call that was started later returns an error within five steps of its own, once
the guards of the list are free. -/
def Fails (earlier later : Calls) : Prop :=
  later.world.writing = false → later.world.readers = 0 → ∀ index job,
    earlier.jobs.length ≤ index → later.jobs[index]? = some job → job.operation.creates = true →
      ∀ proposal, ∃ error, System.outcome (Run.exec system.step later
        (List.replicate 5 (.resume index proposal))) index = some (job.operation, .error error)

/-- Once a `shutdown` has returned, and ever after, all endpoints are closed, and a call that is
started creates no other and fails. -/
def Final (earlier later : Calls) : Prop :=
  Down earlier → AllClosed later ∧ Refused earlier later ∧ Fails earlier later

/-- A `shutdown` that has returned had the read guard and swept what it found in the list. -/
theorem swept_of_down {calls : Calls} (kept : conduct.Kept calls) (down : Down calls) :
    ∃ index, Achieved .shutdown (momentsOf calls.history index) (.ok none) := by
  obtain ⟨index, result, returned⟩ := down
  exact ⟨index, kept.achieved returned⟩

theorem allClosed_of_swept {calls : Calls} (safe : Safe calls.history calls.world) {index : Nat}
    (swept : Achieved .shutdown (momentsOf calls.history index) (.ok none)) :
    AllClosed calls := by
  intro endpoint known alive
  obtain ⟨-, world, endpoints, read, each⟩ := swept
  obtain ⟨entry, member, -, same⟩ := mem_momentsOf.mp read
  have listed := safe.listed entry member world endpoints same endpoint known alive
  rcases each endpoint listed with ⟨before, looked⟩ | closes
  · obtain ⟨other, recorded, -, found⟩ := mem_momentsOf.mp looked
    rw [safe.dead other recorded before endpoint found] at alive
    cases alive
  · exact safe.closed endpoint (happened_of_made closes)

theorem achieved_mono {more : List Moment} {result : Except NetworkError (Option EndpointId)}
    (achieved : Achieved .shutdown past result) (subset : past ⊆ more) :
    Achieved .shutdown more result := by
  obtain ⟨reading, world, endpoints, read, each⟩ := achieved
  refine ⟨reading.mono subset, world, endpoints, subset read, fun endpoint member => ?_⟩
  rcases each endpoint member with ⟨before, dead⟩ | closed
  · exact Or.inl ⟨before, subset dead⟩
  · exact Or.inr (closed.mono subset)

variable {since : List Record}

/-- What a call that was started later has done came after everything earlier. -/
theorem since_of_started {earlier later : Calls} (recorded : System.Recorded earlier)
    (grows : later.history = earlier.history ++ since) {index : Nat}
    (started : earlier.jobs.length ≤ index) (remembered : moment ∈ momentsOf later.history index) :
    ∃ between entry rest, later.history = earlier.history ++ between ++ entry :: rest ∧
      entry.moment = moment := by
  obtain ⟨entry, member, rfl, rfl⟩ := mem_momentsOf.mp remembered
  rw [grows] at member
  rcases List.mem_append.mp member with before | now
  · obtain ⟨job, found, -⟩ := recorded.known entry before
    exact absurd (List.getElem?_eq_some_iff.mp found).1 (by omega)
  · obtain ⟨between, rest, rfl⟩ := List.append_of_mem now
    exact ⟨between, entry, rest, by simp [grows], rfl⟩

theorem Happened.append {history : List Record} (happened : Happened history request)
    (more : List Record) :
    Happened (history ++ more) request := by
  obtain ⟨entry, member, same⟩ := happened
  exact ⟨entry, List.mem_append_left _ member, same⟩

/-- A call that was started after `shutdown` had the read guard has created nothing. -/
theorem uncreated_of_started {earlier later : Calls} (recorded : System.Recorded earlier)
    (safe : Safe later.history later.world) (grows : later.history = earlier.history ++ since)
    (reading : Happened earlier.history .acquireRead) {index : Nat}
    (started : earlier.jobs.length ≤ index) :
    ¬ Made (momentsOf later.history index) .create := by
  rintro ⟨moment, remembered, creates⟩
  obtain ⟨between, entry, rest, split, rfl⟩ := since_of_started recorded grows started remembered
  exact safe.quiet _ entry rest split creates (reading.append between)

/-- A call that was started after `shutdown` had set the flag has made its steps with the flag
set. -/
theorem stopped_of_started {earlier later : Calls} (recorded : System.Recorded earlier)
    (safe : Safe later.history later.world) (grows : later.history = earlier.history ++ since)
    (stored : Happened earlier.history .storeStopped) {index : Nat}
    (started : earlier.jobs.length ≤ index) (remembered : moment ∈ momentsOf later.history index) :
    moment.world.stopped = true := by
  obtain ⟨between, entry, rest, split, rfl⟩ := since_of_started recorded grows started remembered
  exact safe.halted _ entry rest split (stored.append between)

/-! ## A call that is started later -/

/-- What is left of a call. -/
abbrev Rest := Program Call.Reply (Except NetworkError (Option EndpointId))

/-- With the runtime stopped, the program fails within some steps. It waits for nothing once it
holds the write guard, and before that it changes nothing. -/
def Failing : Rest → Nat → Bool → Prop
  | .done result, _, _ => ∃ error, result = .error error
  | .await _ _, 0, _ => False
  | .await call next, steps + 1, holding =>
    (holding = true → ∀ world, waits world call = false) ∧
      ∀ world proposal reply after, world.stopped = true →
        handle world call proposal = some (reply, after) → ∃ holds,
          (holding = true → holds = true) ∧ (holds = false → after = world) ∧
            Failing (next reply) steps holds

/-- Under the write guard the flag is seen, and the guard is dropped. -/
theorem failing_withWriteGuard (steps : Nat) :
    Failing (some <$> withWriteGuard register : Action (Option EndpointId)).run (steps + 3)
      false := by
  have inside : ∀ holding : Bool, holding = true → true = true := fun _ _ => rfl
  have never : ∀ changed : Prop, true = false → changed := fun _ => Bool.noConfusion
  refine ⟨Bool.noConfusion, fun _ _ _ _ _ _ => ⟨true, inside _, never _, ?_⟩⟩
  refine ⟨fun _ _ => rfl, fun world _ _ after stopped answered => ⟨true, inside _, never _, ?_⟩⟩
  obtain ⟨-, done⟩ := handle_eq_some.mp answered
  cases done
  rw [stopped]
  exact ⟨fun _ _ => rfl, fun _ _ _ _ _ _ => ⟨true, inside _, never _, _, rfl⟩⟩

/-- A step that has failed, or has changed nothing before the call goes on. -/
theorem failing_reply {steps : Nat} {call : Call} {next : call.Reply → Rest}
    (free : ∀ world proposal, answer world call proposal = (proposal, world))
    (goesOn : ∀ reply, Failing (next reply) steps false) :
    Failing (.await call next) (steps + 1) false := by
  refine ⟨Bool.noConfusion, fun world proposal reply after _ answered => ?_⟩
  obtain ⟨-, done⟩ := handle_eq_some.mp answered
  rw [free] at done
  cases done
  exact ⟨false, id, fun _ => rfl, goesOn _⟩

theorem failing_action {operation : Operation} (creates : operation.creates = true) :
    Failing (action operation).run 5 false := by
  cases operation with
  | shutdown => cases creates
  | newRecoveryEndpoint =>
    refine failing_reply (fun _ _ => rfl) fun reply => ?_
    cases reply with
    | error error => exact ⟨error, rfl⟩
    | ok _ => exact failing_withWriteGuard 1
  | newInputRelayTunnel =>
    refine failing_reply (fun _ _ => rfl) fun reply => ?_
    cases reply with
    | error error => exact ⟨error, rfl⟩
    | ok _ =>
      refine failing_reply (fun _ _ => rfl) fun reply => ?_
      cases reply with
      | error error => exact ⟨error, rfl⟩
      | ok _ => exact failing_withWriteGuard 0

/-- What is left of it fails as well. -/
theorem failing_of_leads {program rest : Rest} {moments : List Moment}
    (leads : Program.Leads program moments rest) {steps : Nat} {holding : Bool}
    (failing : Failing program steps holding)
    (each : ∀ moment ∈ moments, moment.world.stopped = true ∧ ∃ proposal after,
      handle moment.world moment.call proposal = some (moment.reply, after)) :
    ∃ fewer ≤ steps, ∃ holds, Failing rest fewer holds := by
  induction leads generalizing steps holding with
  | nil => exact ⟨steps, le_refl _, holding, failing⟩
  | cons world call next reply moments rest later ih =>
    cases steps with
    | zero => exact failing.elim
    | succ steps =>
      obtain ⟨stopped, proposal, after, answered⟩ := each _ List.mem_cons_self
      obtain ⟨holds, -, -, goesOn⟩ := failing.2 world proposal reply after stopped answered
      obtain ⟨fewer, le, more⟩ := ih goesOn fun moment member =>
        each moment (List.mem_cons_of_mem _ member)
      exact ⟨fewer, Nat.le_succ_of_le le, more⟩

/-- A call that fails does so when it makes its steps, if it holds the write guard or the guards are
free. -/
theorem outcome_of_failing {calls : Calls} {index steps : Nat} {holding : Bool}
    {job : Job Call.Reply (Except NetworkError (Option EndpointId)) World Operation}
    (found : calls.jobs[index]? = some job) (failing : Failing job.rest steps holding)
    (stopped : calls.world.stopped = true)
    (free : holding = false → calls.world.writing = false ∧ calls.world.readers = 0)
    (proposal : (call : Call) → call.Reply) {count : Nat} (enough : steps ≤ count) :
    ∃ error, System.outcome (Run.exec system.step calls
      (List.replicate count (.resume index proposal))) index =
        some (job.operation, .error error) := by
  induction count generalizing calls job holding steps with
  | zero =>
    obtain rfl := Nat.le_zero.mp enough
    cases rest : job.rest with
    | await call next =>
      rw [rest] at failing
      exact failing.elim
    | done result =>
      rw [rest] at failing
      obtain ⟨error, rfl⟩ := failing
      exact ⟨error, System.outcome_of_done found rest⟩
  | succ count ih =>
    cases rest : job.rest with
    | done result =>
      rw [rest] at failing
      obtain ⟨error, rfl⟩ := failing
      exact ⟨error, System.outcome_of_done (system.jobs_run_of_done found rest _) rest⟩
    | await call next =>
      rw [rest] at failing
      obtain _ | steps := steps
      · exact failing.elim
      have ready : waits calls.world call = false := by
        cases holding with
        | true => exact failing.1 rfl _
        | false =>
          obtain ⟨unwritten, unread⟩ := free rfl
          cases call <;> simp [waits, unwritten, unread]
      cases done : answer calls.world call (proposal call) with
      | mk reply after =>
        have answered := handle_eq_some.mpr ⟨ready, done⟩
        obtain ⟨holds, kept, same, goesOn⟩ := failing.2 _ _ _ _ stopped answered
        have world : (system.step calls (.resume index proposal)).world = after := by
          simp only [System.step, System.resume, found, rest, system, answered]
        have frees : holds = false → after.writing = false ∧ after.readers = 0 := by
          intro unheld
          rw [same unheld]
          refine free (Bool.eq_false_iff.mpr fun held => ?_)
          cases unheld.symm.trans (kept held)
        have ended := ih (system.jobs_resume proposal found rest answered) goesOn
          (world ▸ answer_stopped done stopped) (world ▸ frees) (Nat.le_of_succ_le_succ enough)
        exact ended

/-- A call that was started after `shutdown` had returned fails once the guards are free. -/
theorem fails_of_down {first second : List (Pool.Input Call.Reply Operation Event)}
    (down : Happened (after first).history .storeStopped)
    (grows : (after (first ++ second)).history = (after first).history ++ since) :
    Fails (after first) (after (first ++ second)) := by
  intro unwritten unread index job started found creates proposal
  obtain ⟨kept, safe⟩ := safe_run (first ++ second)
  obtain ⟨leads, answered⟩ := system.sound_run World.bound (first ++ second) job
    (List.mem_of_getElem? found)
  have stopped : ∀ moment ∈ job.past, moment.world.stopped = true := by
    intro moment member
    rw [kept.recorded.past index job found] at member
    exact stopped_of_started (safe_run first).1.recorded safe grows down started member
  obtain ⟨fewer, enough, holds, failing⟩ := failing_of_leads leads (failing_action creates)
    fun moment member => ⟨stopped moment member, answered moment member⟩
  have now : (after (first ++ second)).world.stopped = true :=
    safe.stopped (grows ▸ down.append since)
  exact outcome_of_failing found failing now (fun _ => ⟨unwritten, unread⟩) proposal enough

/-- However `shutdown` interleaves with calls that create endpoints: once it has returned, every
endpoint any of them has created and that is alive is closed, then and ever after, and every such
call that is started later creates none and returns an error as soon as it gets the write guard. -/
theorem no_socket_escapes (first second : List (Pool.Input Call.Reply Operation Event)) :
    Final (after first) (after (first ++ second)) := by
  intro down
  obtain ⟨kept, -⟩ := safe_run first
  obtain ⟨keptLater, safe⟩ := safe_run (first ++ second)
  obtain ⟨shut, achieved⟩ := swept_of_down kept down
  obtain ⟨since, grows⟩ : ∃ since, (after first).history ++ since =
      (after (first ++ second)).history := by
    rw [after, after, Run.exec_append]
    exact system.history_run _ second
  have still : momentsOf (after first).history shut ⊆
      momentsOf (after (first ++ second)).history shut := by
    rw [← grows, System.momentsOf_append]
    exact List.subset_append_left _ _
  have reading := happened_of_made achieved.1
  refine ⟨allClosed_of_swept safe (achieved_mono achieved still),
    fun index job started found creates => ?_,
    fails_of_down (stopped_of_reading kept.entries reading) grows.symm⟩
  have uncreated := uncreated_of_started kept.recorded safe grows.symm reading started
  rw [keptLater.recorded.past index job found]
  refine ⟨uncreated, fun result done => ?_⟩
  have outcome : System.outcome (after (first ++ second)) index =
      some (job.operation, result) := by
    simp only [System.outcome, found, done]
  have post := keptLater.achieved outcome
  cases result with
  | error error => exact ⟨error, rfl⟩
  | ok value =>
    refine absurd ?_ uncreated
    cases operation : job.operation with
    | shutdown =>
      rw [operation] at creates
      cases creates
    | newRecoveryEndpoint =>
      rw [operation] at post
      exact post value rfl
    | newInputRelayTunnel =>
      rw [operation] at post
      exact post value rfl

/-- An environment in which everything can be bound. -/
def willing : (call : Call) → call.Reply
  | .storeStopped | .closeMain | .acquireRead | .releaseRead | .acquireWrite | .releaseWrite
  | .close _ | .discard _ | .retain | .push _ => ()
  | .loadStopped | .upgrade _ => false
  | .registered => []
  | .tryCurrent | .acquireCapacity | .configure => .ok ()
  | .create => .ok 0

/-- A recovery endpoint is under construction when `shutdown` begins, and a relay is asked for when
it has returned. -/
def shutdownRun : List (Pool.Input Call.Reply Operation Event) :=
  [.start .newRecoveryEndpoint, .start .shutdown] ++
    List.replicate 3 (.resume 0 willing) ++ List.replicate 3 (.resume 1 willing) ++
      List.replicate 5 (.resume 0 willing) ++ List.replicate 5 (.resume 1 willing)

/-- The call after it. -/
def relayRun : List (Pool.Input Call.Reply Operation Event) :=
  .start .newInputRelayTunnel :: List.replicate 5 (.resume 2 willing)

/-- The endpoint that was under construction is closed, and the relay is refused. -/
theorem no_socket_escapes_building :
    System.outcome (after shutdownRun) 0 = some (.newRecoveryEndpoint, .ok (some 0)) ∧
      System.outcome (after shutdownRun) 1 = some (.shutdown, .ok none) ∧
        (after (shutdownRun ++ relayRun)).world.alive 0 = true ∧
          System.outcome (after (shutdownRun ++ relayRun)) 2 = some (.newInputRelayTunnel,
            .error (.connect "network runtime is shut down")) ∧
            (AllClosed (after (shutdownRun ++ relayRun)) ∧
              Refused (after shutdownRun) (after (shutdownRun ++ relayRun)) ∧
              Fails (after shutdownRun) (after (shutdownRun ++ relayRun))) := by
  have down : System.outcome (after shutdownRun) 1 = some (.shutdown, .ok none) := by
    decide +kernel
  exact ⟨by decide +kernel, down, by decide +kernel, by decide +kernel,
    no_socket_escapes shutdownRun relayRun ⟨1, .ok none, down⟩⟩

end ArcRelay.Shutdown
