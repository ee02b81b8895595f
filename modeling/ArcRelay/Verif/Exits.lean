import ArcRelay.Lib.Conduct
import ArcRelay.Verif.Forgetting
import ArcRelay.Verif.PairingRequest

/-!
# How forgetting and pairing end

`forget` and `complete_pairing` return early when something fails, and what comes
later in them does not happen: `forget` sweeps the sessions of the peer only if the
endpoint store has forgotten the peer before, and `complete_pairing` closes its session
only when the peer has rejected the pairing or the pairing is complete. The registry
holds a clone of the connection, so a session that is not closed stays.
-/

namespace ArcRelay

open Async

namespace Runtime

variable {self : Runtime}

/-! ## Forgetting -/

/-- The endpoint store does not fail to forget. -/
def clears : Moment → Bool
  | ⟨_, .forgetEndpoints _, reply⟩ => reply.isOk
  | _ => true

/-- The call deletes the peer's row and its grants. -/
def deletes (id : DeviceId) : Moment → Bool
  | ⟨_, .forgetPeer other, reply⟩ => other = id && reply.isOk
  | _ => false

/-- The peer's row and its grants were deleted. -/
def Deleted (past : List Moment) (id : DeviceId) : Prop :=
  ∃ moment ∈ past, deletes id moment = true

instance (past : List Moment) (id : DeviceId) : Decidable (Deleted past id) :=
  inferInstanceAs (Decidable (∃ moment ∈ past, deletes id moment = true))

/-- The last call of a `forget` that has deleted: the sweep, or the endpoint store failed. -/
def Sweeps (past : List Moment) (id : DeviceId) : Prop :=
  Deleted past id → ∃ before world,
    ((∀ moment ∈ past, clears moment = true) ∧ past = before ++ [⟨world, .sweep id, ()⟩]) ∨
      ∃ error, past = before ++ [⟨world, .forgetEndpoints id, .error error⟩]

/-- `forget` sweeps unless the endpoint store fails. -/
theorem sweeps_forget (id : DeviceId) :
    (self.program (.forget id)).Ensures ⟨fun _ _ => True, fun _ _ => True⟩
      (fun past _ => Sweeps past id) [] := by
  refine ⟨trivial, fun deleted reply _ => ?_⟩
  cases reply with
  | error error =>
    rintro ⟨moment, member, deleted⟩
    obtain rfl := List.mem_singleton.mp member
    simp [deletes, Except.isOk, Except.toBool] at deleted
  | ok existed =>
    refine ⟨trivial, fun cleared reply _ => ?_⟩
    cases reply with
    | error error => exact fun _ => ⟨_, cleared, Or.inr ⟨error, rfl⟩⟩
    | ok value =>
      refine ⟨trivial, fun withdrawn _ _ => ⟨trivial, fun swept _ _ _ => ?_⟩⟩
      exact ⟨_, swept, Or.inl ⟨by simp [clears, Except.isOk, Except.toBool], rfl⟩⟩

/-- How the calls of `forget` end. -/
def sweeping (self : Runtime) : Conduct self.system where
  guarantee _ _ _ := True
  post operation past _ := ∀ id, operation = .forget id → Sweeps past id
  programs operation := by
    cases operation with
    | forget id =>
      refine (sweeps_forget id).mono fun _ _ sweeps => ?_
      rintro _ ⟨⟩
      exact sweeps
    | _ => exact Program.ensures_true (fun _ _ => trivial) (fun _ _ => nofun) _

variable {world : World}

theorem swept_registry {id : DeviceId} {after : World} {proposal reply : Call.Reply (.sweep id)}
    (answered : self.handle world (.sweep id) proposal = some (reply, after)) :
    (∀ kind, after.registry.sessions (id, kind) = none) ∧
      ∀ kind entry, world.registry.sessions (id, kind) = some entry →
        after.registry.isOpen entry.connection = false := by
  cases answered
  refine ⟨fun kind => by simp [Registry.forget], fun kind entry found => ?_⟩
  refine Bool.eq_false_iff.mpr fun opened => ?_
  exact ((Registry.isOpen_removePeer _ _ _ _ _).mp opened).2 kind entry found rfl

theorem registry_forgetEndpoints {id : DeviceId} {after : World}
    {proposal reply : Call.Reply (.forgetEndpoints id)}
    (answered : self.handle world (.forgetEndpoints id) proposal = some (reply, after)) :
    after.registry = world.registry := by
  cases answered
  rfl

/-- A step leaves a peer no session, and the connections of those it had are closed. -/
def LeavesNone (self : Runtime) (pool : Jobs)
    (input : Pool.Input Call.Reply Operation Event) (id : DeviceId) : Prop :=
  (∀ kind, (self.system.step pool input).world.registry.sessions (id, kind) = none) ∧
    ∀ kind entry, pool.world.registry.sessions (id, kind) = some entry →
      (self.system.step pool input).world.registry.isOpen entry.connection = false

/-- In every run, when `forget` returns after it has deleted the peer, it leaves the peer no
session exactly if the endpoint store has not failed it or the peer has no session anyway, whatever
else happens meanwhile and whatever `forget` returns. -/
theorem forget_leaves_no_session (self : Runtime) (world : World) (inputs : Inputs) :
    Run.Along self.system.step (System.initial world) (fun pool input =>
      ∀ index id result, System.outcome pool index = none →
        System.outcome (self.system.step pool input) index = some (.forget id, result) →
          Deleted (System.momentsOf (self.system.step pool input).history index) id →
            (LeavesNone self pool input id ↔
              (∀ moment ∈ System.momentsOf (self.system.step pool input).history index,
                clears moment = true) ∨
                ∀ kind, pool.world.registry.sessions (id, kind) = none)) inputs := by
  intro done input _ index id result running returned deleted
  have after : (sweeping self).Kept
      (Run.exec self.system.step (System.initial world) (done ++ [input])) :=
    ((sweeping self).invariant_always (fun _ _ => True) trivial (fun _ _ _ _ => trivial)
      (fun _ _ => trivial) _).1
  rw [Run.exec_concat] at after
  obtain ⟨before, moment, ends⟩ := after.achieved returned id rfl deleted
  obtain ⟨job, found, -, -, last⟩ := self.system.returning running returned
  rw [← after.recorded.past index job found] at ends ⊢
  rcases last with unasked | ⟨earlier, request, proposal, reply, past, answered⟩
  · rw [unasked] at ends
    exact absurd ends (by simp)
  rcases ends with ⟨cleared, swept⟩ | ⟨error, failed⟩
  · refine iff_of_true ?_ (Or.inl cleared)
    rw [past] at swept
    obtain ⟨-, same⟩ := List.append_inj' swept rfl
    cases same
    exact swept_registry (show self.handle _ (.sweep id) proposal = some ((), _) from answered)
  · have uncleared : ¬ ∀ moment ∈ job.past, clears moment = true := by
      intro cleared
      rw [failed] at cleared
      have failed := cleared _ List.mem_concat_self
      cases failed
    rw [past] at failed
    obtain ⟨-, same⟩ := List.append_inj' failed rfl
    cases same
    -- The failing call returns at once and does not touch the registry.
    have untouched := registry_forgetEndpoints
      (show self.handle _ (.forgetEndpoints id) proposal = some (_, _) from answered)
    simp only [LeavesNone, untouched, uncleared, false_or]
    exact ⟨fun leaves => leaves.1, fun none => ⟨none, by simp [none]⟩⟩

/-- Bob's control session is registered. -/
def connectedWorld : World :=
  { World.fresh .empty with
    registry := (Registry.empty.registerSession (.sample "bob" "bob" 0 .control 9 false)).2 }

/-- An environment in which the endpoint store answers so. -/
def storing (cleared : Except NetworkError Unit) : (call : Call) → call.Reply
  | .forgetEndpoints _ => cleared
  | call => call.smooth

/-- Bob is paired and then forgotten, in so many calls. -/
def forgetRunning (cleared : Except NetworkError Unit) (calls : Nat) :
    Inputs :=
  List.flatten [
    [.start (.confirmPairing (.sample "bob" "bob" 0 .pairing 7 false) []),
      .start (.forget ⟨"bob"⟩)],
    resumes 0 (fun _ => Call.smooth) 0 8, resumes 1 (fun _ => storing cleared) 0 calls]

/-- The pool after it. -/
def forgottenPool (cleared : Except NetworkError Unit) (calls : Nat) :
    Jobs :=
  Run.exec (accepting .control).system.step (System.initial connectedWorld)
    (forgetRunning cleared calls)

/-- The endpoint store does not fail, and Bob's session is gone. -/
theorem forget_leaves_no_session_bob :
    System.outcome (forgottenPool (.ok ()) 4) 1 = some (.forget ⟨"bob"⟩, .flag (.ok true)) ∧
      (∀ kind, (forgottenPool (.ok ()) 4).world.registry.sessions (⟨"bob"⟩, kind) = none) ∧
        (forgottenPool (.ok ()) 4).world.registry.isOpen 9 = false := by
  have along := forget_leaves_no_session (accepting .control) connectedWorld
    (forgetRunning (.ok ()) 4)
  have stepped : (accepting .control).system.step (forgottenPool (.ok ()) 3)
      (.resume 1 (storing (.ok ()))) = forgottenPool (.ok ()) 4 :=
    (Run.exec_concat _ _ (forgetRunning (.ok ()) 3) _).symm
  have exactly := along (forgetRunning (.ok ()) 3) _
    (List.prefix_refl (forgetRunning (.ok ()) 4)) 1 ⟨"bob"⟩ (.flag (.ok true)) (by decide +kernel)
  have returned : System.outcome (forgottenPool (.ok ()) 4) 1 =
      some (.forget ⟨"bob"⟩, .flag (.ok true)) := by decide +kernel
  obtain ⟨none, closed⟩ := (exactly (stepped ▸ returned) (by decide +kernel)).mpr
    (Or.inl (by decide +kernel))
  have held : ((forgottenPool (.ok ()) 3).world.registry.sessions (⟨"bob"⟩, .control)).map
      ActiveSession.connection = some 9 := by decide +kernel
  obtain ⟨entry, found, same⟩ := Option.map_eq_some_iff.mp held
  exact ⟨returned, stepped ▸ none, same ▸ stepped ▸ closed .control entry found⟩

/-- The endpoint store fails to forget Bob: the row is deleted, `forget` returns an error, and the
control session stays registered and open. -/
theorem forget_leaves_session :
    System.outcome (forgottenPool (.error .timeout) 2) 1 =
        some (.forget ⟨"bob"⟩, .flag (.error .timeout)) ∧
      Deleted (System.momentsOf (forgottenPool (.error .timeout) 2).history 1) ⟨"bob"⟩ ∧
        (forgottenPool (.error .timeout) 2).world.database.peers.rows = [] ∧
          ((forgottenPool (.error .timeout) 2).world.registry.sessions
            (⟨"bob"⟩, .control)).isSome = true ∧
            (forgottenPool (.error .timeout) 2).world.registry.isOpen 9 = true := by
  decide +kernel

/-! ## Completing a pairing -/

/-- Answers that `complete_pairing` closes its session on: a rejection, or the approval of requested
grants as they were sent. -/
def Decides (platform : Platform) (pending : PendingPairing) (response : PairingResponse) : Prop :=
  ∃ result, response.result = some result ∧
    ((!result.paired || result.peerId != pending.session.peer.deviceId.asStr) = true ∨
      ∃ entries, Approves platform pending entries response.grantedGrants)

/-- The session of the pairing is closed. -/
def Closes (pending : PendingPairing) (past : List Moment) : Prop :=
  ∃ moment ∈ past, ∃ reason, moment.call = .close pending.session.conn 0 reason

variable {pending : PendingPairing}

/-- In an obliging environment `complete_pairing` closes its session. -/
theorem closes_completePairing (begun : Begun pending) :
    (self.completePairing pending).run.Ensures (self.obliged (Decides self.platform pending))
      (fun now _ => Closes pending now) [] := by
  refine achieves_bind_run (achieves_frame _ _) fun _ bytes answered => ?_
  obtain ⟨response, decoded, result, verdict, decides⟩ := answered
  refine achieves_bind_run (achieves_ofExcept (by rw [decoded]; rfl)) fun _ _ same => ?_
  subst same
  refine achieves_bind_run (achieves_ofExcept (by rw [verdict])) fun _ final same => ?_
  subst same
  by_cases rejected : (!final.paired || final.peerId != pending.session.peer.deviceId.asStr) = true
  · rw [if_pos rejected]
    exact ⟨trivial, fun _ _ _ => ⟨_, List.mem_concat_self, _, rfl⟩⟩
  · rw [if_neg rejected]
    obtain ⟨entries, approves⟩ := decides.resolve_left rejected
    exact (achieves_approved begun approves).mono fun _ _ ⟨_, _, _, _, moment, member, same⟩ =>
      ⟨moment, member, _, same⟩

/-- A call of `complete_pairing` ends with the session closed, or something was not obliging. -/
def concluding (self : Runtime) : Conduct self.system where
  guarantee _ _ _ := True
  post operation past _ := ∀ pending, operation = .completePairing pending → Begun pending →
    (∃ moment ∈ past, ¬ self.Obliging (Decides self.platform pending) moment.call moment.reply) ∨
      Closes pending past
  programs operation := by
    cases operation with
    | completePairing pending =>
      by_cases begun : Begun pending
      · refine Program.ensures_map ((closes_completePairing begun).unless.mono fun _ _ known => ?_)
        rintro _ ⟨⟩ -
        exact known
      · refine Program.ensures_true (fun _ _ => trivial) (fun _ _ => ?_) _
        rintro _ ⟨⟩ begun'
        exact absurd begun' begun
    | _ => exact Program.ensures_true (fun _ _ => trivial) (fun _ _ _ other => by cases other) _

/-- What a call of a pairing has to do with its session: if it closes the session or was not
answered obligingly, the session is closed. -/
def Tidied (self : Runtime) (pending : PendingPairing) (registry : Registry)
    (moment : Moment) : Prop :=
  ((∃ reason, moment.call = .close pending.session.conn 0 reason) ∨
    ¬ self.Obliging (Decides self.platform pending) moment.call moment.reply) →
      registry.isOpen pending.session.conn = false

/-- What is assumed of a step: a pairing that is completed was begun, and when its call is not
answered obligingly its session is closed already. -/
def Cooperative (self : Runtime) (pool : Jobs) :
    Pool.Input Call.Reply Operation Event → Prop
  | .start (.completePairing pending) => Begun pending
  | .resume index proposal => ∀ job pending, pool.jobs[index]? = some job →
      job.operation = .completePairing pending →
        ∀ moment ∈ self.system.made pool (.resume index proposal),
          ¬ self.Obliging (Decides self.platform pending) moment.call moment.reply →
            pool.world.registry.isOpen pending.session.conn = false
  | _ => True

/-- What is known of the pairings of a pool. -/
structure PairingsConcluded (runtime : Runtime) (pool : Jobs) :
    Prop where
  kept : runtime.concluding.Kept pool
  begun : ∀ job ∈ pool.jobs, ∀ pending, job.operation = .completePairing pending → Begun pending
  tidied : ∀ job ∈ pool.jobs, ∀ pending, job.operation = .completePairing pending →
    ∀ moment ∈ job.past, Tidied runtime pending pool.world.registry moment

theorem Tidied.later {registry after : Registry} {moment : Moment}
    (tidied : Tidied self pending registry moment)
    (closing : ∀ connection, after.isOpen connection = true → registry.isOpen connection = true) :
    Tidied self pending after moment := by
  intro ended
  refine Bool.eq_false_iff.mpr fun opened => ?_
  have before := closing _ opened
  rw [tidied ended] at before
  cases before

/-- A call that was just made is tidied, if it was answered obligingly or the session is closed. -/
theorem settled_call {after : World} {call : Call} {proposal reply : call.Reply}
    (answered : self.handle world call proposal = some (reply, after))
    (cooperative : ¬ self.Obliging (Decides self.platform pending) call reply →
      world.registry.isOpen pending.session.conn = false) :
    Tidied self pending after.registry ⟨world, call, reply⟩ := by
  rintro (⟨reason, same⟩ | unobliging)
  · subst same
    cases answered
    simp
  · refine Bool.eq_false_iff.mpr fun opened => ?_
    have before := handle_closing answered opened
    rw [cooperative unobliging] at before
    cases before

/-- One step keeps the pairings concluded. -/
theorem concluded_step {pool : Jobs} {input : Pool.Input Call.Reply Operation Event}
    (concluded : PairingsConcluded self pool) (cooperative : Cooperative self pool input) :
    PairingsConcluded self (self.system.step pool input) := by
  have kept : self.concluding.Kept (self.system.step pool input) := Conduct.kept_step concluded.kept
  have stepped := self.system.step_cases pool input
  generalize self.system.step pool input = after at stepped kept ⊢
  cases stepped with
  | start operation =>
    refine ⟨kept, fun job member pending same => ?_, fun job member pending same => ?_⟩
    · rcases List.mem_concat_iff.mp member with earlier | rfl
      · exact concluded.begun job earlier pending same
      · obtain rfl : operation = .completePairing pending := same
        exact cooperative
    · rcases List.mem_concat_iff.mp member with earlier | rfl
      · exact concluded.tidied job earlier pending same
      · simp
  | call index proposal job request next reply world found awaiting answered =>
    have closing : ∀ connection, world.registry.isOpen connection = true →
        pool.world.registry.isOpen connection = true := fun _ opened =>
      handle_closing answered opened
    have present := List.mem_of_getElem? found
    refine ⟨kept, fun other member pending same => ?_, fun other member pending same moment past =>
      ?_⟩
    · rcases System.mem_set member with rfl | earlier
      · exact concluded.begun job present pending same
      · exact concluded.begun other earlier pending same
    · rcases System.mem_set member with rfl | earlier
      · rcases List.mem_concat_iff.mp past with before | rfl
        · exact (concluded.tidied job present pending same moment before).later closing
        · refine settled_call answered fun unobliging => ?_
          refine cooperative job pending found same ⟨pool.world, request, reply⟩ ?_ unobliging
          simp only [System.made, found, awaiting, answered, Option.map_some, Option.mem_def]
      · exact (concluded.tidied other earlier pending same moment past).later closing
  | idle index proposal => exact ⟨kept, concluded.begun, concluded.tidied⟩
  | disturb event =>
    exact ⟨kept, concluded.begun, fun job member pending same moment past =>
      (concluded.tidied job member pending same moment past).later fun _ opened =>
        World.disturb_closing opened⟩

/-- Every pairing that has returned has a closed session, so that the peers listed as connected are
listed because of other connections. -/
def PairingsClosed (pool : Jobs) : Prop :=
  ∀ index pending result, System.outcome pool index = some (.completePairing pending, result) →
    pool.world.registry.isOpen pending.session.conn = false ∧
      ∀ id, pool.world.registry.connectedPeer id = true →
        ∃ kind entry, pool.world.registry.sessions (id, kind) = some entry ∧
          entry.connection ≠ pending.session.conn ∧
            pool.world.registry.isOpen entry.connection = true

/-- Whoever is listed as connected has a session with an open connection. -/
theorem exists_open_of_connectedPeer {registry : Registry} {id : DeviceId}
    (listed : registry.connectedPeer id = true) :
    ∃ kind entry, registry.sessions (id, kind) = some entry ∧
      registry.isOpen entry.connection = true := by
  obtain ⟨kind, -, active⟩ := List.any_eq_true.mp listed
  cases present : registry.sessions (id, kind) with
  | none =>
    rw [present] at active
    cases active
  | some entry =>
    rw [present] at active
    exact ⟨kind, entry, present, active⟩

/-- Concluded pairings are closed. -/
theorem PairingsConcluded.closed {pool : Jobs}
    (concluded : PairingsConcluded self pool) : PairingsClosed pool := by
  intro index pending result returned
  obtain ⟨job, found, about, -⟩ := System.outcome_eq_some returned
  have member := List.mem_of_getElem? found
  have tidied := concluded.tidied job member pending about
  rw [concluded.kept.recorded.past index job found] at tidied
  have closed : pool.world.registry.isOpen pending.session.conn = false := by
    rcases concluded.kept.achieved returned pending rfl
      (concluded.begun job member pending about) with
      ⟨moment, past, unobliging⟩ | ⟨moment, past, closes⟩
    · exact tidied moment past (Or.inr unobliging)
    · exact tidied moment past (Or.inl closes)
  refine ⟨closed, fun id listed => ?_⟩
  obtain ⟨kind, entry, present, opened⟩ := exists_open_of_connectedPeer listed
  refine ⟨kind, entry, present, fun same => ?_, opened⟩
  rw [same, closed] at opened
  cases opened

/-- In every run in which the pairings that are completed were begun and get an answer in time that
rejects them or approves what was sent, and in which the repository does not fail them, or else
their session is closed already, the session of a pairing is closed once `complete_pairing` has
returned. -/
theorem pairing_session_closed {inputs : Inputs}
    (cooperative : Run.Along self.system.step (System.initial world) (Cooperative self) inputs) :
    Run.Throughout self.system.step (System.initial world) PairingsClosed inputs := by
  have initial : PairingsConcluded self (System.initial world) :=
    ⟨Conduct.kept_initial world, by simp [System.initial], by simp [System.initial]⟩
  have concluded := Run.invariant initial (fun _ _ => concluded_step) cooperative
  exact fun done isPrefix => (concluded done isPrefix).closed

/-! ## Concrete pairings -/

/-- The pairing session with Bob is registered. -/
def pairingWorld : World :=
  { World.fresh .empty with
    registry := (Registry.empty.registerSession samplePending.session).2 }

/-- A smooth environment in which the deadline may have expired. -/
def expiring (expired : Bool) : (call : Call) → call.Reply
  | .expired => expired
  | call => call.smooth

/-- A pairing is completed, in so many calls. -/
def completing (expired : Bool) (calls : Nat) : Inputs :=
  .start (.completePairing samplePending) :: resumes 0 (fun _ => expiring expired) 0 calls

/-- The pool after it. -/
def completedPool (expired : Bool) (calls : Nat) : Jobs :=
  Run.exec sampleRuntime.system.step (System.initial pairingWorld) (completing expired calls)

/-- The reply is obliging, as far as it can be computed. -/
def obliges : Moment → Bool
  | ⟨_, .expired, expired⟩ => !expired
  | ⟨_, .receive _ _, frame⟩ => frame.isOk
  | ⟨_, .grants _, reply⟩ => reply.isOk
  | ⟨_, .savePairing _ _, reply⟩ => reply.isOk
  | _ => true

theorem decides_sample (bytes : Bytes) : ∃ response,
    sampleRuntime.platform.decodePairingResponse bytes = .ok response ∧
      Decides sampleRuntime.platform samplePending response := by
  refine ⟨_, rfl, _, rfl, Or.inr ⟨[((.crossScreenInject, .outbound), .none)], ?_, ?_, ?_⟩⟩
  · exact List.Subset.refl _
  · decide
  · exact List.Forall₂.cons ⟨rfl, rfl, rfl⟩ List.Forall₂.nil

theorem obliging_of_obliges {moment : Moment} (obliges : obliges moment = true) :
    sampleRuntime.Obliging (Decides sampleRuntime.platform samplePending) moment.call
      moment.reply := by
  obtain ⟨world, call, reply⟩ := moment
  cases call with
  | expired => exact (Bool.not_eq_true' _).mp obliges
  | receive connection limit =>
    cases reply with
    | error error => cases obliges
    | ok bytes =>
      obtain ⟨response, decoded, decides⟩ := decides_sample bytes
      exact ⟨bytes, response, rfl, decoded, decides⟩
  | grants id =>
    cases reply with
    | error error => cases obliges
    | ok existing => exact ⟨existing, rfl⟩
  | savePairing record grants =>
    cases reply with
    | error error => cases obliges
    | ok done => rfl
  | _ => trivial

/-- The pairing was begun as `begin_pairing` does it. -/
theorem begun_samplePending : Begun samplePending := by
  refine ⟨rfl, fun entry member => ?_⟩
  obtain rfl := List.mem_singleton.mp member
  rfl

/-- The run is cooperative. -/
theorem cooperative_completing :
    Run.Along sampleRuntime.system.step (System.initial pairingWorld) (Cooperative sampleRuntime)
      (completing false 12) := by
  have obliging : Run.Along sampleRuntime.system.step (System.initial pairingWorld)
      (sampleRuntime.system.Meets fun _ moment => obliges moment = true) (completing false 12) := by
    decide +kernel
  have known : Run.Along sampleRuntime.system.step (System.initial pairingWorld)
      (fun pool _ => ∀ job ∈ pool.jobs, job.operation = .completePairing samplePending)
      (completing false 12) := by decide +kernel
  have only : ∀ pending, .start (.completePairing pending) ∈ completing false 12 →
      pending = samplePending := by
    intro pending member
    rcases List.mem_cons.mp member with same | later
    · cases same
      rfl
    · obtain ⟨time, -, other⟩ := List.mem_map.mp later
      cases other
  intro done input isPrefix
  cases input with
  | start operation =>
    cases operation with
    | completePairing pending =>
      rw [only pending (isPrefix.subset List.mem_concat_self)]
      exact begun_samplePending
    | _ => trivial
  | resume index proposal =>
    intro job pending found about moment made unobliging
    obtain rfl : samplePending = pending :=
      Operation.completePairing.inj
        ((known done _ isPrefix job (List.mem_of_getElem? found)).symm.trans
        about)
    exact absurd (obliging_of_obliges (obliging done _ isPrefix moment made)) unobliging
  | disturb event => trivial

/-- Bob approves in time, and the session is closed. -/
theorem pairing_session_closed_bob :
    (System.outcome (completedPool false 12) 0).map Prod.fst =
      some (.completePairing samplePending) ∧
      (completedPool false 12).world.registry.isOpen samplePending.session.conn = false := by
  have returned : (System.outcome (completedPool false 12) 0).map Prod.fst =
      some (.completePairing samplePending) := by decide +kernel
  obtain ⟨⟨operation, result⟩, found, same⟩ := Option.map_eq_some_iff.mp returned
  obtain rfl : operation = .completePairing samplePending := same
  exact ⟨returned, (pairing_session_closed cooperative_completing _ (List.prefix_refl _) 0
    samplePending result found).1⟩

/-- The deadline expires: `complete_pairing` returns an error, the session stays open, and Bob is
listed as connected. -/
theorem pairing_session_leaks :
    System.outcome (completedPool true 1) 0 =
        some (.completePairing samplePending, .pairing (.error .timeout)) ∧
      (completedPool true 1).world.registry.isOpen samplePending.session.conn = true ∧
        (completedPool true 1).world.registry.connectedPeer ⟨"bob"⟩ = true := by
  decide +kernel

end Runtime

end ArcRelay
