import ArcRelay.Pairing
import ArcRelay.Verif.Identity
import ArcRelay.Verif.Pairing

/-!
# Requested grants survive the wire

What `begin_pairing` asks for and how `complete_pairing` reads the answer fit
together: a peer that approves some of the requested grants, in any order and as they
were sent, is paired with exactly these grants, in the direction they were asked for.
The three checks of constraints — of the request, of the answer, and before the
grants are stored — accept the same constraints.
-/

namespace ArcRelay

open Async

/-! ## One grant -/

theorem decodeGrantConstraints_encode {capability : CapabilityId} {constraints : GrantConstraints}
    (valid : validateLocalGrantRequest capability constraints = .ok ()) :
    decodeGrantConstraints (encodeGrantConstraints constraints) = .ok constraints := by
  cases constraints with
  | none => rfl
  | remoteFileShares shareIds writable =>
    simp only [validateLocalGrantRequest] at valid
    split at valid
    · cases valid
    · rename_i passed
      simp only [Bool.or_eq_true, not_or, Bool.not_eq_true] at passed
      simp only [encodeGrantConstraints, decodeGrantConstraints]
      simp only [passed, Bool.or_self, Bool.false_eq_true, ↓reduceIte]

theorem localDirection_localDirection (direction : GrantDirection) :
    Runtime.localDirection (Runtime.localDirection direction) = direction := by
  cases direction <;> rfl

theorem decodeWireDirection_directionNumber (platform : Platform) (direction : GrantDirection) :
    platform.decodeWireDirection (platform.directionNumber direction) = some direction := by
  cases direction with
  | inbound => simp [Platform.decodeWireDirection]
  | outbound =>
    have differ : platform.directionNumber .outbound ≠ platform.directionNumber .inbound :=
      fun same => nomatch platform.directionNumber_injective same
    simp [Platform.decodeWireDirection, differ]

/-! ## The requests -/

/-- A request as an entry of the map. -/
def PairingGrantRequest.entry (request : PairingGrantRequest) : GrantKey × GrantConstraints :=
  ((request.capability, request.direction), request.constraints)

/-- What is collected: valid requests, and all of them. -/
structure Collected (requests : List PairingGrantRequest) (requested : RequestedGrants) : Prop where
  entries : ∀ entry ∈ requested.rows, ∃ request ∈ requests, request.entry = entry
  valid : ∀ entry ∈ requested.rows, validateLocalGrantRequest entry.1.1 entry.2 = .ok ()

theorem Collected.concat {requests : List PairingGrantRequest} {requested : RequestedGrants}
    (collected : Collected requests requested) {request : PairingGrantRequest}
    (valid : validateLocalGrantRequest request.capability request.constraints = .ok ()) :
    Collected (requests ++ [request]) (requested.upsert request.entry) := by
  constructor
  · intro entry member
    rcases Table.mem_upsert.mp member with rfl | ⟨earlier, -⟩
    · exact ⟨request, by simp, rfl⟩
    · obtain ⟨other, known, same⟩ := collected.entries entry earlier
      exact ⟨other, List.mem_append_left _ known, same⟩
  · intro entry member
    rcases Table.mem_upsert.mp member with rfl | ⟨earlier, -⟩
    · exact valid
    · exact collected.valid entry earlier

/-- The first loop of `begin_pairing` collects the requests. -/
theorem collected_of_collectRequested {requests : List PairingGrantRequest}
    {requested : RequestedGrants} (passed : collectRequested requests = .ok requested) :
    Collected requests requested := by
  induction requests using List.reverseRecOn generalizing requested with
  | nil =>
    cases passed
    exact ⟨by simp [Table.empty], by simp [Table.empty]⟩
  | append_singleton requests request ih =>
    rw [collectRequested, List.foldlM_append] at passed
    obtain ⟨earlier, before, last⟩ := Except.bind_eq_ok.mp passed
    rw [List.foldlM_cons] at last
    obtain ⟨after, stepped, ended⟩ := Except.bind_eq_ok.mp last
    obtain rfl : after = requested := Except.pure_eq_ok.mp ended
    obtain ⟨_, valid, rest⟩ := Except.bind_eq_ok.mp stepped
    dsimp only at rest
    split at rest
    · cases rest
    · split at rest
      · cases rest
      · cases rest
        exact (ih before).concat valid

namespace Runtime

variable {self : Runtime} {past : List Moment}

/-- `begin_pairing` returns the collected requests. -/
theorem ensures_beginPairing (peer : PeerAdvertisement) (requests : List PairingGrantRequest) :
    Async.Ensures ⟨fun _ _ => True, fun _ _ => True⟩
      (fun _ pending => collectRequested requests = .ok pending.requested) past
      (self.beginPairing peer requests) := by
  have anything : ∀ {α : Type} (program : Action α) (now : List Moment), Async.Ensures
      ⟨fun _ _ => True, fun _ _ => True⟩ (fun _ _ => True) now program := fun program now =>
    Program.ensures_true (fun _ _ => trivial) (fun _ _ _ _ => trivial) _
  refine ensures_bind ensures_succeeded fun _ requested collected => ?_
  refine ensures_bind (anything (self.connect peer .pairing) _) fun _ session _ => ?_
  refine ensures_bind (anything (self.openFeatureStream session "arcrelay.pairing" _) _)
    fun _ _ _ => ?_
  exact ensures_pure collected

/-! ## The answer -/

/-- The replies of an environment in which the peer gives such an answer in time and the repository
does not fail. -/
def Obliging (self : Runtime) (answers : PairingResponse → Prop) : (call : Call) → call.Reply → Prop
  | .expired, expired => expired = false
  | .receive _ _, frame => ∃ bytes response, frame = .ok bytes ∧
      self.platform.decodePairingResponse bytes = .ok response ∧ answers response
  | .grants _, reply => ∃ existing, reply = .ok existing
  | .savePairing _ _, reply => reply = .ok ()
  | _, _ => True

theorem Obliging.mono {answers more : PairingResponse → Prop} {call : Call} {reply : call.Reply}
    (obliging : self.Obliging answers call reply)
    (weaken : ∀ response, answers response → more response) : self.Obliging more call reply := by
  cases call with
  | receive connection limit =>
    obtain ⟨bytes, response, arrived, decoded, known⟩ := obliging
    exact ⟨bytes, response, arrived, decoded, weaken response known⟩
  | _ => exact obliging

/-- The contract of programs in such an environment. -/
abbrev obliged (self : Runtime) (answers : PairingResponse → Prop) :
    Program.Contract World Call.Reply where
  guarantee _ _ := True
  rely _ moment := self.Obliging answers moment.call moment.reply

variable {answers : PairingResponse → Prop}

theorem achieves_ask (call : Call) :
    Async.Achieves (self.obliged answers) (fun _ reply => self.Obliging answers call reply) past
      (ask call) :=
  achieves_call trivial fun _ _ answered => answered

theorem achieves_frame (connection : ConnectionId) (limit : Nat) :
    Async.Achieves (self.obliged answers) (fun _ bytes => ∃ response,
      self.platform.decodePairingResponse bytes = .ok response ∧ answers response) past
      (withTimeout (do
        let frame ← ask (.receive connection limit)
        Async.ofExcept frame)) := by
  refine achieves_withTimeout ⟨fun _ => id, fun _ => id⟩ (fun _ => trivial)
    (fun _ _ _ known => known)
    (fun _ _ _ _ => id) (achieves_bind (achieves_ask _) fun _ reply answered => ?_)
  obtain ⟨bytes, response, rfl, decoded, known⟩ := answered
  exact ⟨bytes, rfl, response, decoded, known⟩

/-- A grant on the wire is a requested one. -/
structure Carries (platform : Platform) (entry : GrantKey × GrantConstraints)
    (wire : CapabilityGrant) : Prop where
  capability : wire.capability = platform.token entry.1.1
  direction : wire.direction = platform.directionNumber (localDirection entry.1.2)
  constraints : wire.constraints = encodeGrantConstraints entry.2

/-- The grants on the wire are requested ones with these entries, each once. -/
structure Approves (platform : Platform) (pending : PendingPairing)
    (entries : List (GrantKey × GrantConstraints)) (wires : List CapabilityGrant) : Prop where
  requested : entries ⊆ pending.requested.rows
  distinct : (entries.map Prod.fst).Nodup
  carried : List.Forall₂ (Carries platform) entries wires

/-- The grants are those with these entries, in this order. -/
structure Grants (pending : PendingPairing) (entries : List (GrantKey × GrantConstraints))
    (granted : List Grant) : Prop where
  same : granted.map (fun grant => (grant.key, grant.constraints)) = entries
  own : ∀ grant ∈ granted, grant.peerId = pending.session.peer.deviceId

variable {granted : List Grant} {entries : List (GrantKey × GrantConstraints)}
  {pending : PendingPairing}

theorem Grants.entry (grants : Grants pending entries granted) {grant : Grant}
    (member : grant ∈ granted) : (grant.key, grant.constraints) ∈ entries := by
  rw [← grants.same]
  exact List.mem_map_of_mem (f := fun grant : Grant => (grant.key, grant.constraints)) member

/-- What `begin_pairing` puts together: a pairing session and requests that passed its checks. -/
structure Begun (pending : PendingPairing) : Prop where
  pairing : pending.session.kind = .pairing
  valid : ∀ entry ∈ pending.requested.rows, validateLocalGrantRequest entry.1.1 entry.2 = .ok ()

variable {wires : List CapabilityGrant}

/-- The loop over the approved grants accepts what was sent. -/
theorem achieves_approveGrants (begun : Begun pending)
    (approves : Approves self.platform pending entries wires) (seen : List GrantKey)
    (unseen : ∀ entry ∈ entries, entry.1 ∉ seen) :
    Async.Achieves (self.obliged answers) (fun _ granted => Grants pending entries granted) past
      (self.approveGrants pending seen wires) := by
  obtain ⟨requested, distinct, carried⟩ := approves
  induction carried generalizing seen past with
  | nil => exact achieves_pure ⟨rfl, by simp⟩
  | @cons entry wire later wires carries _ ih =>
    have member := requested List.mem_cons_self
    have found : pending.requested.find? entry.1 = some entry :=
      Table.find?_eq_some.mpr ⟨member, rfl⟩
    obtain ⟨fresh, rest⟩ := List.nodup_cons.mp distinct
    have named : self.platform.parseToken wire.capability = some entry.1.1 := by
      rw [carries.capability, self.platform.parseToken_token]
    have directed : self.platform.decodeWireDirection wire.direction =
        some (localDirection entry.1.2) := by
      rw [carries.direction, decodeWireDirection_directionNumber]
    have constrained : decodeGrantConstraints wire.constraints = .ok entry.2 := by
      rw [carries.constraints, decodeGrantConstraints_encode (begun.valid entry member)]
    refine achieves_bind (achieves_ofExcept (by rw [named])) fun _ _ same => ?_
    subst same
    refine achieves_bind (achieves_ofExcept (by rw [directed])) fun _ _ same => ?_
    rw [localDirection_localDirection] at same
    subst same
    refine achieves_bind (achieves_refuse
      (by simpa using unseen entry List.mem_cons_self)) fun _ _ _ => ?_
    refine achieves_bind (achieves_ofExcept (by rw [Prod.mk.eta, found])) fun _ _ same => ?_
    subst same
    refine achieves_bind (achieves_ofExcept constrained) fun _ _ same => ?_
    subst same
    refine achieves_bind (achieves_refuse (by simp)) fun _ _ _ => ?_
    refine achieves_bind (achieves_ask .now) fun _ grantedAtMs _ => ?_
    refine achieves_bind (ih (entry.1 :: seen) ?_
      (fun other known => requested (List.mem_cons_of_mem _ known)) rest) fun _ granted known => ?_
    · intro other known again
      rcases List.mem_cons.mp again with same | before
      · exact fresh (same ▸ List.mem_map_of_mem known)
      · exact unseen other (List.mem_cons_of_mem _ known) before
    · refine achieves_pure ⟨?_, ?_⟩
      · rw [List.map_cons, known.same]
        rfl
      · intro grant inside
        rcases List.mem_cons.mp inside with rfl | further
        · rfl
        · exact known.own grant further

theorem forM_validate
    (valid : ∀ grant ∈ granted,
      validateLocalGrantRequest grant.capability grant.constraints = .ok ()) :
    (granted.forM fun grant => validateLocalGrantRequest grant.capability grant.constraints) =
      .ok () := by
  induction granted with
  | nil => rfl
  | cons grant later ih =>
    exact Except.bind_eq_ok.mpr ⟨(), valid grant List.mem_cons_self,
      ih fun other member => valid other (List.mem_cons_of_mem _ member)⟩

/-- A confirmation succeeds if the repository does. -/
theorem achieves_confirmPairingWithGrants (begun : Begun pending)
    (requested : entries ⊆ pending.requested.rows) (grants : Grants pending entries granted) :
    Async.Achieves (self.obliged answers) (fun _ _ => True) past
      (self.confirmPairingWithGrants pending.session granted) := by
  refine achieves_bind (achieves_refuse (by simp [begun.pairing])) fun _ _ _ => ?_
  refine achieves_bind (achieves_refuse (by simpa using grants.own)) fun _ _ _ => ?_
  refine achieves_bind (achieves_ofExcept (forM_validate fun grant member =>
    begun.valid _ (requested (grants.entry member)))) fun _ _ _ => ?_
  refine achieves_bind (achieves_ask .now) fun _ now _ => ?_
  refine achieves_bind (achieves_ask _) fun _ reply answered => ?_
  obtain ⟨existing, rfl⟩ := answered
  refine achieves_bind (achieves_ofExcept rfl) fun _ _ _ => ?_
  refine achieves_bind (achieves_ask _) fun _ saved answered => ?_
  obtain rfl : saved = .ok () := answered
  refine achieves_bind (achieves_ofExcept rfl) fun _ _ _ => ?_
  refine achieves_bind (succeeds_rememberAuthenticatedSession (fun _ _ _ => trivial)
    pending.session .inbound).achieves fun _ _ _ => ?_
  exact achieves_call trivial fun _ _ _ => trivial

/-- The part of `complete_pairing` after an approval. -/
theorem achieves_approved (begun : Begun pending)
    (approves : Approves self.platform pending entries wires) :
    Async.Achieves (self.obliged answers) (fun now outcome =>
      outcome.peer = pending.session.peer ∧ Grants pending entries outcome.granted ∧
        ∃ moment ∈ now, moment.call = .close pending.session.conn 0 "pairing completed") past (do
      let granted ← self.approveGrants pending [] wires
      self.confirmPairingWithGrants pending.session granted
      ask (.close pending.session.conn 0 "pairing completed")
      return ⟨pending.session.peer, granted⟩ : Action PairingOutcome) := by
  refine achieves_bind (achieves_approveGrants begun approves [] (by simp))
    fun _ granted known => ?_
  refine achieves_bind (achieves_confirmPairingWithGrants begun approves.requested known)
    fun now _ _ => ?_
  have closes : Async.Achieves (self.obliged answers) (fun now _ => ∃ moment ∈ now,
      moment.call = .close pending.session.conn 0 "pairing completed") now
      (ask (.close pending.session.conn 0 "pairing completed")) :=
    achieves_call trivial fun _ _ _ => ⟨_, List.mem_concat_self, rfl⟩
  refine achieves_bind closes fun _ _ closed => ?_
  exact achieves_pure ⟨rfl, known, closed⟩

/-- The peer approves these entries. -/
def Approval (platform : Platform) (pending : PendingPairing)
    (entries : List (GrantKey × GrantConstraints)) (response : PairingResponse) : Prop :=
  (∃ reason, response.result = some ⟨true, pending.session.peer.deviceId.asStr, reason⟩) ∧
    Approves platform pending entries response.grantedGrants

/-- `complete_pairing` accepts an answer that approves requested grants as they were sent. -/
theorem achieves_completePairing (begun : Begun pending) :
    Async.Achieves (self.obliged (Approval self.platform pending entries)) (fun _ outcome =>
      outcome.peer = pending.session.peer ∧ Grants pending entries outcome.granted) past
      (self.completePairing pending) := by
  refine achieves_bind (achieves_frame _ _) fun _ bytes answered => ?_
  obtain ⟨response, decoded, ⟨reason, verdict⟩, approves⟩ := answered
  refine achieves_bind (achieves_ofExcept (by rw [decoded]; rfl)) fun _ _ same => ?_
  subst same
  refine achieves_bind (achieves_ofExcept (by rw [verdict])) fun _ _ same => ?_
  subst same
  rw [if_neg (by simp)]
  exact Program.Ensures.mono (achieves_approved begun approves)
    fun _ _ ⟨outcome, same, own, known, _⟩ => ⟨outcome, same, own, known⟩

/-- Sent grants come from entries with different keys. -/
theorem entries_of_wires {platform : Platform} {requested : RequestedGrants}
    (drawn : wires ⊆ encodeRequested platform requested) (nodup : wires.Nodup) :
    ∃ entries, entries ⊆ requested.rows ∧ (entries.map Prod.fst).Nodup ∧
      entries.map (encodeRequest platform) = wires := by
  induction wires with
  | nil => exact ⟨[], by simp, by simp, rfl⟩
  | cons wire later ih =>
    obtain ⟨fresh, rest⟩ := List.nodup_cons.mp nodup
    obtain ⟨entries, inside, distinct, same⟩ :=
      ih (fun other member => drawn (List.mem_cons_of_mem _ member)) rest
    obtain ⟨entry, member, rfl⟩ := List.mem_map.mp (drawn List.mem_cons_self)
    refine ⟨entry :: entries, List.cons_subset.mpr ⟨member, inside⟩, ?_,
      by rw [List.map_cons, same]⟩
    refine List.nodup_cons.mpr ⟨fun again => fresh ?_, distinct⟩
    obtain ⟨other, known, key⟩ := List.mem_map.mp again
    obtain rfl : other = entry := requested.eq_of_key_eq (inside known) member key
    exact same ▸ List.mem_map_of_mem known

variable {peer : PeerAdvertisement}

/-- The session of a pairing that was begun is the one its dial has returned. -/
theorem session_of_begun {requests : List PairingGrantRequest} {dialling streaming : List Moment}
    {session : Session}
    (dialled : Program.Returns (self.connect peer .pairing).run dialling (.ok session))
    (begun : Program.Returns (self.beginPairing peer requests).run (dialling ++ streaming)
      (.ok pending)) : pending.session = session := by
  have collected := (ensures_beginPairing peer requests).returns begun (fun _ _ _ => trivial)
    pending rfl
  have dials := leads_of_bind (returns_ofExcept collected) begun
  have streams := leads_of_bind dialled dials
  have same : Async.Ensures ⟨fun _ _ => True, fun _ _ => True⟩
      (fun _ pending => pending.session = session) ([] : List Moment) (do
        let _ ← self.openFeatureStream session "arcrelay.pairing"
          (self.platform.encodePairingRequest ⟨encodeRequested self.platform pending.requested⟩)
        return ⟨session, pending.requested⟩ : Action PendingPairing) :=
    ensures_bind (Program.ensures_true (fun _ _ => trivial) (fun _ _ _ _ => trivial) _)
      fun _ _ (_ : True) => ensures_pure rfl
  exact Program.Ensures.returns same streams (fun _ _ _ => trivial) pending rfl

/-- A `connect` of a run has returned what its calls make it return. -/
theorem returns_of_connect {database : Database} {inputs : Inputs} {index : Nat}
    {kind : SessionKind} {session : Session}
    (dialled : System.outcome (self.after database inputs) index =
      some (.connect peer kind, .session (.ok session))) :
    Program.Returns (self.connect peer kind).run
      (System.momentsOf (self.after database inputs).history index) (.ok session) := by
  obtain ⟨job, found, does, done⟩ := System.outcome_eq_some dialled
  obtain ⟨leads, -⟩ := self.system.sound_run (World.fresh database) inputs job
    (List.mem_of_getElem? found)
  rw [does, done] at leads
  obtain ⟨result, returns, same⟩ := Program.returns_of_map
    (show Program.Returns (Outcome.session <$> (self.connect peer kind).run) _ _ from leads)
  cases same
  rwa [(self.system.recorded_run (World.fresh database) inputs).past index job found] at returns

/-- Whatever was requested, in every run: when the dial of `begin_pairing` has returned, and
`begin_pairing` has sent the requests on the session it got, a peer that answers in time with its
own id and with some of the grants that were sent to it, in any order and without repetitions, is
paired if the repository does not fail; and the grants are, in the order of the answer, the requests
they were sent for. -/
theorem pairing_requests_round_trip {requests : List PairingGrantRequest} {database : Database}
    {inputs : Inputs} {index : Nat} {session : Session}
    (dialled : System.outcome (self.after database inputs) index =
      some (.connect peer .pairing, .session (.ok session))) {moments : List Moment}
    (begun : Program.Returns (self.beginPairing peer requests).run
      (System.momentsOf (self.after database inputs).history index ++ moments) (.ok pending))
    (drawn : wires ⊆ encodeRequested self.platform pending.requested) (nodup : wires.Nodup)
    (reason : String) {Environment : Type}
    (answer : Environment → (call : Call) → call.Reply × Environment)
    (obliging : ∀ environment call, self.Obliging
      (· = ⟨some ⟨true, pending.session.peer.deviceId.asStr, reason⟩, wires⟩) call
      (answer environment call).1) (environment : Environment) :
    ∃ granted, (Program.complete answer (self.completePairing pending).run environment).1 =
        .ok ⟨pending.session.peer, granted⟩ ∧
      (granted.map fun grant => encodeRequest self.platform (grant.key, grant.constraints)) =
        wires ∧
      ∀ grant ∈ granted, grant.peerId = pending.session.peer.deviceId ∧
        ⟨grant.capability, grant.direction, grant.constraints⟩ ∈ requests := by
  have collected := collected_of_collectRequested
    ((ensures_beginPairing peer requests).returns begun (fun _ _ _ => trivial) pending rfl)
  have pairing : pending.session.kind = .pairing := by
    rw [session_of_begun (returns_of_connect dialled) begun]
    exact congrArg Prod.snd (key_of_connect database inputs dialled)
  obtain ⟨entries, inside, distinct, rfl⟩ := entries_of_wires drawn nodup
  have approves : Approves self.platform pending entries
      (entries.map (encodeRequest self.platform)) :=
    ⟨inside, distinct, List.forall₂_map_right_iff.mpr (List.forall₂_same.mpr
      fun _ _ => ⟨rfl, rfl, rfl⟩)⟩
  have achieves : Async.Achieves (self.obliged (Approval self.platform pending entries))
      (fun _ outcome => outcome.peer = pending.session.peer ∧
        Grants pending entries outcome.granted) [] (self.completePairing pending) :=
    achieves_completePairing ⟨pairing, collected.valid⟩
  obtain ⟨outcome, completed, own, known⟩ := Program.Ensures.complete achieves
    (fun _ _ environment call => (obliging environment call).mono fun response same =>
      same ▸ ⟨⟨reason, rfl⟩, approves⟩) (World.fresh .empty) environment
  refine ⟨outcome.granted, ?_, ?_, fun grant member => ⟨known.own grant member, ?_⟩⟩
  · rw [completed, ← own]
  · rw [← known.same, List.map_map]
    rfl
  · obtain ⟨request, listed, same⟩ := collected.entries _ (inside (known.entry member))
    simp only [PairingGrantRequest.entry, Grant.key, Prod.mk.injEq] at same
    obtain ⟨⟨capability, direction⟩, constraints⟩ := same
    rwa [← capability, ← direction, ← constraints]

/-! ## A concrete pairing -/

/-- What Alice asks Bob for. -/
def sampleRequests : List PairingGrantRequest :=
  [⟨.crossScreenInject, .outbound, .none⟩,
    ⟨.remoteFilesRead, .inbound, .remoteFileShares ["docs"] false⟩]

/-- What Bob approves: the second request, and then the first. -/
def sampleApproved : List CapabilityGrant :=
  [⟨"remote_files.read", 2, some ⟨some ⟨["docs"], false⟩⟩, 0⟩, ⟨"cross_screen.inject", 1, none, 0⟩]

/-- Alice, whose peer approves that. -/
def requestingRuntime : Runtime :=
  .sample (.sample [sampleHello "alice" 1 .pairing, sampleHello "bob" 2 .pairing]
    ⟨some ⟨true, "bob", ""⟩, sampleApproved⟩) "alice" 1

/-- Alice after dialling Bob. -/
def requestingPool : Jobs :=
  requestingRuntime.after .empty sharedRun

/-- The grants that are asked for. -/
def sampleRequested : RequestedGrants :=
  (Table.empty.upsert ((.crossScreenInject, .outbound), .none)).upsert
    ((.remoteFilesRead, .inbound), .remoteFileShares ["docs"] false)

/-- What `begin_pairing` does once it has a session. -/
def requestOn (session : Session) : Action PendingPairing := do
  let _ ← requestingRuntime.openFeatureStream session "arcrelay.pairing"
    (requestingRuntime.platform.encodePairingRequest
      ⟨encodeRequested requestingRuntime.platform sampleRequested⟩)
  return ⟨session, sampleRequested⟩

/-- Bob was dialled, and the requests can be sent on the session. -/
def requests : Option (Operation × Outcome) → Bool
  | some (operation, .session (.ok session)) =>
    operation == .connect bobAdvertisement .pairing &&
      (Program.eval (fun (world : World) _ reply => some (reply, world)) (fun _ => Call.smooth) 0
        (requestOn session).run (World.fresh .empty)).any fun run =>
          run.2.1.toOption == some ⟨session, sampleRequested⟩
  | _ => false

/-- Alice dials Bob and sends two requests on the session; Bob approves both in the other order, and
gets both. -/
theorem pairing_requests_round_trip_both : ∃ session,
    System.outcome requestingPool 0 =
      some (.connect bobAdvertisement .pairing, .session (.ok session)) ∧
    ∃ granted, (Program.complete (fun (_ : Unit) call => (call.smooth, ()))
        (requestingRuntime.completePairing ⟨session, sampleRequested⟩).run ()).1 =
          .ok ⟨session.peer, granted⟩ ∧
      (granted.map fun grant =>
        encodeRequest requestingRuntime.platform (grant.key, grant.constraints)) = sampleApproved ∧
      ∀ grant ∈ granted, grant.peerId = session.peer.deviceId ∧
        ⟨grant.capability, grant.direction, grant.constraints⟩ ∈ sampleRequests := by
  have known : requests (System.outcome requestingPool 0) = true := by decide +kernel
  unfold requests at known
  split at known
  · rename_i operation session dialled
    simp only [Bool.and_eq_true, beq_iff_eq, Option.any_eq_true] at known
    obtain ⟨rfl, ⟨moments, result, after⟩, evaluated, sent⟩ := known
    have bob : session.peer.deviceId = ⟨"bob"⟩ :=
      congrArg Prod.fst (key_of_connect .empty sharedRun dialled)
    refine ⟨session, dialled, ?_⟩
    cases result with
    | error error => cases sent
    | ok pending =>
      obtain rfl : pending = ⟨session, sampleRequested⟩ := Option.some.inj sent
      have streamed : Program.Leads
          (requestingRuntime.connect bobAdvertisement .pairing >>= requestOn).run _ _ :=
        returns_bind (returns_of_connect dialled) (Program.returns_of_eval evaluated).1
      have begun : Program.Returns
          (requestingRuntime.beginPairing bobAdvertisement sampleRequests).run _ _ :=
        returns_bind (returns_ofExcept
          (show collectRequested sampleRequests = .ok sampleRequested by decide +kernel)) streamed
      rw [List.nil_append] at begun
      have drawn : sampleApproved ⊆
          encodeRequested requestingRuntime.platform sampleRequested := by decide +kernel
      refine pairing_requests_round_trip dialled begun drawn (by decide +kernel) "" _
        (fun _ call => ?_) ()
      cases call with
      | receive connection limit =>
        refine ⟨_, _, rfl, rfl, ?_⟩
        rw [bob]
      | grants id => exact ⟨_, rfl⟩
      | expired | savePairing => rfl
      | _ => trivial
  · cases known

end Runtime

end ArcRelay
