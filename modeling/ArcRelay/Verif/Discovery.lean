import ArcRelay.Discovery
import ArcRelay.Lib.Run

/-!
# What the discovery snapshot shows

Calls of the discovery service that follow one another. A call changes the maps
and publishes a snapshot only if the route of a peer changed. The time of an
advertisement is not part of its route but decides which of two records of a
device is shown, so whether the published snapshot is the current one depends on
the times of the updates that are not published. The second part compares the
announced peers with the services that announce them.
-/

namespace ArcRelay

/-! ## Advertisements without their times -/

/-- An advertisement up to its time. -/
def PeerAdvertisement.untimed (peer : PeerAdvertisement) : PeerAdvertisement :=
  { peer with lastSeenAtMs := 0 }

/-- The part of an advertisement that the newer of two decides, up to the time. -/
def PeerAdvertisement.details (peer : PeerAdvertisement) :
    DevicePublicKey × DeviceMetadata × UInt16 × Digest :=
  (peer.publicKey, peer.metadata, peer.port, peer.certificateSha256)

theorem sameDiscoveryRoute_iff {left right : PeerAdvertisement} :
    sameDiscoveryRoute left right = true ↔ left.untimed = right.untimed := by
  simp only [sameDiscoveryRoute, PeerAdvertisement.untimed, Bool.and_eq_true, beq_iff_eq,
    PeerAdvertisement.mk.injEq, and_true, and_assoc]

/-- Two advertisements that are the same up to their times have the same details. -/
theorem details_of_untimed {left right : PeerAdvertisement} (same : left.untimed = right.untimed) :
    left.details = right.details := by
  simp only [PeerAdvertisement.untimed, PeerAdvertisement.mk.injEq] at same
  simp [PeerAdvertisement.details, same]

/-- Of two pairs of records the same one decides, or it makes no difference. -/
def SameChoice (target newer laterTarget laterNewer : PeerAdvertisement) : Prop :=
  (target.lastSeenAtMs ≤ newer.lastSeenAtMs ↔
    laterTarget.lastSeenAtMs ≤ laterNewer.lastSeenAtMs) ∨ target.details = newer.details

/-- Records that only got other times are merged into the same exactly when the same one decides. -/
theorem untimed_mergeAdvertisement {target newer laterTarget laterNewer : PeerAdvertisement}
    (targets : target.untimed = laterTarget.untimed) (newers : newer.untimed = laterNewer.untimed) :
    (mergeAdvertisement target newer).untimed =
        (mergeAdvertisement laterTarget laterNewer).untimed ↔
      SameChoice target newer laterTarget laterNewer := by
  have details : (mergeAdvertisement target newer).untimed =
      (mergeAdvertisement laterTarget laterNewer).untimed ↔
        (decisive target newer).details = (decisive laterTarget laterNewer).details := by
    simp only [PeerAdvertisement.untimed, PeerAdvertisement.mk.injEq] at targets newers
    simp only [PeerAdvertisement.untimed, mergeAdvertisement, targets, newers,
      PeerAdvertisement.mk.injEq, PeerAdvertisement.details, Prod.mk.injEq, true_and, and_true]
  have sameTarget := details_of_untimed targets
  have sameNewer := details_of_untimed newers
  rw [details, SameChoice]
  unfold decisive
  by_cases before : target.lastSeenAtMs ≤ newer.lastSeenAtMs <;>
    by_cases after : laterTarget.lastSeenAtMs ≤ laterNewer.lastSeenAtMs <;>
      simp [before, after, ← sameTarget, ← sameNewer, eq_comm]

/-! ## The list that is published -/

/-- The order of the snapshot is total. -/
instance : Std.Total peerOrder where
  total left right := lex_total left.metadata.name right.metadata.name left.deviceId right.deviceId

/-- The order of the snapshot is transitive. -/
instance : IsTrans PeerAdvertisement peerOrder where
  trans _ _ _ before after := lex_trans before after

theorem deviceId_mergeAdvertisement (own peer : PeerAdvertisement) :
    (mergeAdvertisement own peer).deviceId = own.deviceId := rfl

theorem find?_mergedPeers (authenticated mdns : PeerTable) (id : DeviceId) :
    (mergedPeers authenticated mdns).find? id =
      Option.merge mergeAdvertisement (authenticated.find? id) (mdns.find? id) :=
  Table.find?_merge deviceId_mergeAdvertisement authenticated mdns id

/-- Two published lists are the same up to times exactly when they show the same record of every
device up to its time. -/
theorem untimed_emitted_iff {authenticated mdns authenticatedLater mdnsLater : PeerTable} :
    (emitted authenticated mdns).map PeerAdvertisement.untimed =
        (emitted authenticatedLater mdnsLater).map PeerAdvertisement.untimed ↔
      ∀ id, ((mergedPeers authenticated mdns).find? id).map PeerAdvertisement.untimed =
        ((mergedPeers authenticatedLater mdnsLater).find? id).map PeerAdvertisement.untimed := by
  have perm : ∀ authenticated mdns, ((emitted authenticated mdns).map
      PeerAdvertisement.untimed).Perm
        ((mergedPeers authenticated mdns).rows.map PeerAdvertisement.untimed) :=
    fun authenticated mdns => (List.perm_insertionSort _ _).map _
  have sorted : ∀ authenticated mdns, ((emitted authenticated mdns).map
      PeerAdvertisement.untimed).Pairwise peerOrder := fun authenticated mdns =>
    List.pairwise_map.mpr (List.pairwise_insertionSort peerOrder _)
  have distinct : (((mergedPeers authenticated mdns).rows.map PeerAdvertisement.untimed).map
      PeerAdvertisement.deviceId).Nodup := by
    rw [List.map_map]
    exact (mergedPeers authenticated mdns).distinct
  have keyed : ∀ peer, PeerAdvertisement.deviceId (PeerAdvertisement.untimed peer) =
      PeerAdvertisement.deviceId peer := fun _ => rfl
  refine Iff.trans ?_ (Table.perm_map_iff keyed)
  constructor
  · intro same
    exact (perm _ _).symm.trans (same ▸ perm _ _)
  · intro rows
    have perms := (perm _ _).trans (rows.trans (perm _ _).symm)
    refine perms.eq_of_pairwise (fun left right first second le ge => ?_) (sorted _ _) (sorted _ _)
    -- the order is antisymmetric on the ids, which are distinct
    have ids : left.deviceId = right.deviceId := by
      rcases le with less | ⟨same, le⟩ <;> rcases ge with greater | ⟨same', ge⟩
      · exact absurd less greater.asymm
      · exact absurd less (same' ▸ lt_irrefl _)
      · exact absurd greater (same ▸ lt_irrefl _)
      · exact le_antisymm le ge
    exact List.inj_on_of_nodup_map distinct ((perm _ _).mem_iff.mp first)
      ((perm _ _).mem_iff.mp (perms.mem_iff.mpr second)) ids

namespace Discovery

/-! ## What a call does -/

/-- The state after `emit`. -/
def published (state : Discovery) : Discovery :=
  { state with snapshot := emitted state.authenticatedPeers state.mdnsPeers }

/-- `emit` publishes the current list. -/
theorem complete_emit (state : Discovery) :
    emit.complete answer state = ((), state.published) := rfl

/-- `emit` after a change. -/
theorem complete_emitIf (changed : Bool) (state : Discovery) :
    ((emitIf changed).complete answer state).2 = if changed then state.published else state := by
  cases changed <;> rfl

variable (localId : DeviceId)

/-- What a call does before it publishes: whether it will publish, and the maps it leaves. -/
def update (state : Discovery) : Operation → Bool × Discovery
  | .resolve _ none => (false, state)
  | .resolve fullname (some peer) =>
    if peer.deviceId = localId then (false, state)
    else
      let (changed, peers) := mergeObservedPeer state.mdnsPeers peer
      (changed, { state with
        serviceIds := state.serviceIds.upsert (fullname, peer.deviceId), mdnsPeers := peers })
  | .remove fullname =>
    let serviceIds := state.serviceIds.deleteWhere fun service => service.1 = fullname
    match state.serviceIds.find? fullname with
    | none => (false, { state with serviceIds })
    | some (_, id) => ((state.mdnsPeers.find? id).isSome, { state with
        serviceIds, mdnsPeers := state.mdnsPeers.deleteWhere fun peer => peer.deviceId = id })
  | .observeAuthenticated peer =>
    if peer.deviceId = localId then (false, state)
    else
      let (changed, peers) := mergeObservedPeer state.authenticatedPeers peer
      (changed, { state with authenticatedPeers := peers })
  | .forgetAuthenticated id =>
    ((state.authenticatedPeers.find? id).isSome, { state with
      authenticatedPeers := state.authenticatedPeers.deleteWhere fun peer => peer.deviceId = id })
  | .refresh => (true, state)

/-- A call changes the maps and then publishes them if it has to. -/
theorem perform_eq (state : Discovery) (operation : Operation) :
    perform localId state operation =
      if (update localId state operation).1 then (update localId state operation).2.published
      else (update localId state operation).2 := by
  unfold perform task update
  cases operation with
  | resolve fullname decoded =>
    cases decoded with
    | none => rfl
    | some peer =>
      by_cases own : peer.deviceId = localId
      · simp only [resolve, if_pos own]
        rfl
      · simp only [resolve, if_neg own]
        exact complete_emitIf _ _
  | remove fullname =>
    cases found : state.serviceIds.find? fullname with
    | none =>
      simp only [remove, locked, Program.perform, Program.await_bind, Program.done_bind,
        Program.complete, answer, found, Option.map_none]
      rfl
    | some service =>
      simp only [remove, locked, Program.perform, Program.await_bind, Program.done_bind,
        Program.complete, answer, found, Option.map_some]
      exact complete_emitIf _ _
  | observeAuthenticated peer =>
    by_cases own : peer.deviceId = localId
    · simp only [observeAuthenticated, if_pos own]
      rfl
    · simp only [observeAuthenticated, if_neg own]
      exact complete_emitIf _ _
  | forgetAuthenticated id => exact complete_emitIf _ _
  | refresh => rfl

/-! ## Whether the snapshot is current -/

/-- The published snapshot is, up to times, what `emit` would publish now. -/
def Fresh (state : Discovery) : Prop :=
  state.snapshot.map PeerAdvertisement.untimed =
    (emitted state.authenticatedPeers state.mdnsPeers).map PeerAdvertisement.untimed

instance (state : Discovery) : Decidable state.Fresh := inferInstanceAs (Decidable (_ = _))

/-- An update that only renews the time of one record of a device does not change which of its two
records is shown. -/
def Timely (state : Discovery) : Operation → Prop
  | .observeAuthenticated peer => peer.deviceId ≠ localId → ∀ observed mdns,
      state.authenticatedPeers.find? peer.deviceId = some observed →
        state.mdnsPeers.find? peer.deviceId = some mdns →
          sameDiscoveryRoute observed (mergeAdvertisement observed peer) = true →
            SameChoice observed mdns (mergeAdvertisement observed peer) mdns
  | .resolve _ (some peer) => peer.deviceId ≠ localId → ∀ authenticated observed,
      state.authenticatedPeers.find? peer.deviceId = some authenticated →
        state.mdnsPeers.find? peer.deviceId = some observed →
          sameDiscoveryRoute observed (mergeAdvertisement observed peer) = true →
            SameChoice authenticated observed authenticated (mergeAdvertisement observed peer)
  | .resolve _ none | .remove _ | .forgetAuthenticated _ | .refresh => True

theorem fresh_empty : empty.Fresh := rfl

theorem fresh_published (state : Discovery) : state.published.Fresh := rfl

variable {state : Discovery}

/-- What is published if there is a change is current if it is without one. -/
theorem fresh_publishedIf {changed : Bool} (unchanged : changed = false → state.Fresh) :
    (if changed then state.published else state).Fresh := by
  cases changed with
  | true => exact fresh_published state
  | false => exact unchanged rfl

/-- An unpublished change keeps a current snapshot current exactly when it changes no record that is
shown, up to times. -/
theorem Fresh.unpublished_iff (fresh : state.Fresh) (authenticated mdns : PeerTable)
    (serviceIds : Table (String × DeviceId) String Prod.fst) :
    Fresh ⟨mdns, authenticated, serviceIds, state.snapshot⟩ ↔
      ∀ id, (Option.merge mergeAdvertisement (state.authenticatedPeers.find? id)
          (state.mdnsPeers.find? id)).map PeerAdvertisement.untimed =
        (Option.merge mergeAdvertisement (authenticated.find? id) (mdns.find? id)).map
          PeerAdvertisement.untimed := by
  unfold Fresh at *
  rw [fresh, untimed_emitted_iff]
  simp only [find?_mergedPeers]

theorem mergeObservedPeer_snd (peers : PeerTable) (peer : PeerAdvertisement) :
    (mergeObservedPeer peers peer).2 = peers.absorb mergeAdvertisement peer := by
  unfold mergeObservedPeer Table.absorb
  split <;> simp_all

variable {peer : PeerAdvertisement}

/-- An observed peer changes nothing but a time exactly when it was known with the same route. -/
theorem mergeObservedPeer_fst {peers : PeerTable} :
    (mergeObservedPeer peers peer).1 = false ↔
      ∃ observed, peers.find? peer.deviceId = some observed ∧
        sameDiscoveryRoute observed (mergeAdvertisement observed peer) = true := by
  unfold mergeObservedPeer
  split <;> simp_all

theorem find?_mergeObservedPeer {peers : PeerTable} {observed : PeerAdvertisement}
    (known : peers.find? peer.deviceId = some observed) (id : DeviceId) :
    (mergeObservedPeer peers peer).2.find? id =
      if peer.deviceId = id then some (mergeAdvertisement observed peer) else peers.find? id := by
  rw [mergeObservedPeer_snd, Table.find?_absorb deviceId_mergeAdvertisement]
  split
  · rename_i same
    rw [← same, known]
    rfl
  · exact Option.merge_none_right

/-- A silent observation of an authenticated peer. -/
theorem fresh_mergeAuthenticated_iff (fresh : state.Fresh) {observed : PeerAdvertisement}
    (known : state.authenticatedPeers.find? peer.deviceId = some observed)
    (silent : sameDiscoveryRoute observed (mergeAdvertisement observed peer) = true) :
    Fresh { state with
      authenticatedPeers := (mergeObservedPeer state.authenticatedPeers peer).2 } ↔
      ∀ mdns, state.mdnsPeers.find? peer.deviceId = some mdns →
        SameChoice observed mdns (mergeAdvertisement observed peer) mdns := by
  have route := sameDiscoveryRoute_iff.mp silent
  rw [fresh.unpublished_iff]
  constructor
  · intro same mdns announced
    have shown := same peer.deviceId
    rw [find?_mergeObservedPeer known, if_pos rfl, known, announced] at shown
    exact (untimed_mergeAdvertisement route rfl).mp (Option.some.inj shown)
  · intro choice id
    rw [find?_mergeObservedPeer known]
    split
    · rename_i same
      rw [← same, known]
      cases announced : state.mdnsPeers.find? peer.deviceId with
      | none => exact congrArg some route
      | some mdns =>
        exact congrArg some ((untimed_mergeAdvertisement route rfl).mpr (choice mdns announced))
    · rfl

/-- A silent observation of an announced peer. -/
theorem fresh_mergeMdns_iff (fresh : state.Fresh) {observed : PeerAdvertisement}
    {serviceIds : Table (String × DeviceId) String Prod.fst}
    (known : state.mdnsPeers.find? peer.deviceId = some observed)
    (silent : sameDiscoveryRoute observed (mergeAdvertisement observed peer) = true) :
    Fresh { state with serviceIds, mdnsPeers := (mergeObservedPeer state.mdnsPeers peer).2 } ↔
      ∀ authenticated, state.authenticatedPeers.find? peer.deviceId = some authenticated →
        SameChoice authenticated observed authenticated (mergeAdvertisement observed peer) := by
  have route := sameDiscoveryRoute_iff.mp silent
  rw [fresh.unpublished_iff]
  constructor
  · intro same authenticated seen
    have shown := same peer.deviceId
    rw [find?_mergeObservedPeer known, if_pos rfl, known, seen] at shown
    exact (untimed_mergeAdvertisement rfl route).mp (Option.some.inj shown)
  · intro choice id
    rw [find?_mergeObservedPeer known]
    split
    · rename_i same
      rw [← same, known]
      cases seen : state.authenticatedPeers.find? peer.deviceId with
      | none => exact congrArg some route
      | some authenticated =>
        exact congrArg some ((untimed_mergeAdvertisement rfl route).mpr (choice authenticated seen))
    · rfl

theorem deleteWhere_absent {peers : PeerTable} {id : DeviceId}
    (absent : (peers.find? id).isSome = false) :
    (peers.deleteWhere fun peer => peer.deviceId = id) = peers := by
  refine Table.deleteWhere_eq_self fun peer member => ?_
  have missing : peers.find? id = none := by simpa using absent
  simpa using Table.find?_eq_none.mp missing peer member

/-- One call keeps the snapshot current exactly when it is timely. -/
theorem fresh_perform_iff (fresh : state.Fresh) (operation : Operation) :
    (perform localId state operation).Fresh ↔ Timely localId state operation := by
  rw [perform_eq]
  cases operation with
  | resolve fullname decoded =>
    cases decoded with
    | none => exact iff_of_true fresh trivial
    | some peer =>
      by_cases own : peer.deviceId = localId
      · simp only [update, if_pos own]
        exact iff_of_true fresh fun foreign => absurd own foreign
      · simp only [update, if_neg own]
        cases changed : (mergeObservedPeer state.mdnsPeers peer).1 with
        | true =>
          refine iff_of_true (fresh_published _) fun _ _ observed _ known silent => ?_
          rw [mergeObservedPeer_fst.mpr ⟨observed, known, silent⟩] at changed
          cases changed
        | false =>
          obtain ⟨observed, known, silent⟩ := mergeObservedPeer_fst.mp changed
          refine (fresh_mergeMdns_iff fresh known silent).trans ?_
          constructor
          · intro choice _ authenticated other seen announced _
            rw [known] at announced
            cases announced
            exact choice authenticated seen
          · exact fun timely authenticated seen =>
              timely own authenticated observed seen known silent
  | remove fullname =>
    refine iff_of_true (fresh_publishedIf fun unchanged => ?_) trivial
    unfold update at unchanged ⊢
    cases found : state.serviceIds.find? fullname with
    | none =>
      simp only [found]
      exact fresh
    | some service =>
      simp only [found] at unchanged ⊢
      rw [deleteWhere_absent unchanged]
      exact fresh
  | observeAuthenticated peer =>
    by_cases own : peer.deviceId = localId
    · simp only [update, if_pos own]
      exact iff_of_true fresh fun foreign => absurd own foreign
    · simp only [update, if_neg own]
      cases changed : (mergeObservedPeer state.authenticatedPeers peer).1 with
      | true =>
        refine iff_of_true (fresh_published _) fun _ observed _ known _ silent => ?_
        rw [mergeObservedPeer_fst.mpr ⟨observed, known, silent⟩] at changed
        cases changed
      | false =>
        obtain ⟨observed, known, silent⟩ := mergeObservedPeer_fst.mp changed
        refine (fresh_mergeAuthenticated_iff fresh known silent).trans ?_
        constructor
        · intro choice _ other mdns seen announced _
          rw [known] at seen
          cases seen
          exact choice mdns announced
        · exact fun timely mdns announced => timely own observed mdns known announced silent
  | forgetAuthenticated id =>
    refine iff_of_true (fresh_publishedIf fun unchanged => ?_) trivial
    unfold update at unchanged ⊢
    dsimp only
    rw [deleteWhere_absent unchanged]
    exact fresh
  | refresh => exact iff_of_true (fresh_published _) trivial

/-- The published snapshot is current throughout a run exactly when every silent update of the run
is timely. -/
theorem snapshot_fresh_iff (operations : List Operation) :
    Run.Throughout (perform localId) empty Fresh operations ↔
      Run.Along (perform localId) empty (Timely localId) operations :=
  Run.throughout_iff fresh_empty
    (fun _ operation fresh => fresh_perform_iff localId fresh operation) operations

/-- An advertisement of one device, with its name and time. -/
def sampleAdvertisement (id name : String) (lastSeenAtMs : Int) : PeerAdvertisement :=
  ⟨⟨id⟩, .sample id, ⟨name, "", ""⟩, [], [], 0, Vector.replicate 32 0, lastSeenAtMs⟩

/-- A device is renamed on its service while an older session keeps its old name. When the session
is authenticated again, the old name is the newer one, but the snapshot keeps showing the other. -/
theorem stale_snapshot : ¬ (Run.exec (perform ⟨"local"⟩) empty
    [.observeAuthenticated (sampleAdvertisement "peer" "old" 1),
      .resolve "service" (some (sampleAdvertisement "peer" "new" 2)),
      .observeAuthenticated (sampleAdvertisement "peer" "old" 3)]).Fresh := by
  decide

/-! ## Services and the peers they announce -/

/-- The events of the browser. -/
inductive ServiceEvent where
  /-- `ServiceResolved`, with the advertisement the service decodes to. -/
  | resolved (fullname : String) (decoded : Option PeerAdvertisement)
  | removed (fullname : String)

/-- The call the browser loop makes for an event. -/
def ServiceEvent.operation : ServiceEvent → Operation
  | .resolved fullname decoded => .resolve fullname decoded
  | .removed fullname => .remove fullname

/-- Which device every service has announced last, unless it was removed since. -/
abbrev Announcements := String → Option DeviceId

/-- An event as an observer of the services sees it. -/
def Announcements.after (announced : Announcements) : ServiceEvent → Announcements
  | .resolved _ none => announced
  | .resolved fullname (some peer) => Function.update announced fullname (some peer.deviceId)
  | .removed fullname => Function.update announced fullname none

/-- The service and its observer. -/
structure Observed where
  state : Discovery
  announced : Announcements

/-- Nothing has been announced. -/
def Observed.empty : Observed := ⟨Discovery.empty, fun _ => none⟩

/-- The browser loop handles an event. -/
def Observed.handle (observed : Observed) (event : ServiceEvent) : Observed :=
  ⟨perform localId observed.state event.operation, observed.announced.after event⟩

/-- The announced peers are the devices some service announces. -/
def Observed.Follows (observed : Observed) : Prop :=
  ∀ id, (observed.state.mdnsPeers.find? id).isSome ↔ ∃ name, observed.announced name = some id

/-- A service announces another device than this one, and if it announced a different one before,
some other service still does; a service is removed only if no other one announces its device. -/
def Observed.Orderly (observed : Observed) : ServiceEvent → Prop
  | .resolved _ none => True
  | .resolved fullname (some peer) => peer.deviceId ≠ localId ∧
      ∀ id, observed.announced fullname = some id → id ≠ peer.deviceId →
        ∃ name, name ≠ fullname ∧ observed.announced name = some id
  | .removed fullname => ∀ id, observed.announced fullname = some id →
      ∀ name, name ≠ fullname → observed.announced name ≠ some id

/-- The service remembers every announcement of another device, and never itself. -/
structure Observed.Tracks (observed : Observed) : Prop where
  services : ∀ name, observed.announced name ≠ some localId →
    (observed.state.serviceIds.find? name).map Prod.snd = observed.announced name
  foreign : observed.state.mdnsPeers.find? localId = none

theorem mdnsPeers_perform (state : Discovery) (operation : Operation) :
    (perform localId state operation).mdnsPeers = (update localId state operation).2.mdnsPeers := by
  rw [perform_eq]
  cases (update localId state operation).1 <;> rfl

theorem serviceIds_perform (state : Discovery) (operation : Operation) :
    (perform localId state operation).serviceIds =
      (update localId state operation).2.serviceIds := by
  rw [perform_eq]
  cases (update localId state operation).1 <;> rfl

/-- The announced peers after a service of another device was resolved. -/
theorem isSome_find?_resolved (state : Discovery) (foreign : peer.deviceId ≠ localId)
    (fullname : String) (id : DeviceId) :
    ((perform localId state (.resolve fullname (some peer))).mdnsPeers.find? id).isSome ↔
      (state.mdnsPeers.find? id).isSome ∨ peer.deviceId = id := by
  rw [mdnsPeers_perform]
  simp only [update, if_neg foreign]
  rw [mergeObservedPeer_snd, Table.find?_absorb deviceId_mergeAdvertisement, Option.isSome_merge]
  simp

theorem isSome_find?_removed (state : Discovery) (fullname : String) (id : DeviceId) :
    ((perform localId state (.remove fullname)).mdnsPeers.find? id).isSome ↔
      (state.mdnsPeers.find? id).isSome ∧
        (state.serviceIds.find? fullname).map Prod.snd ≠ some id := by
  rw [mdnsPeers_perform]
  cases found : state.serviceIds.find? fullname with
  | none => simp [update, found]
  | some service =>
    simp only [update, found, Table.find?_deleteKey, Option.map_some]
    split
    · rename_i same
      simp [same]
    · rename_i different
      simp [Ne.symm different]

variable {observed : Observed}

/-- What is stored of the services after one was resolved or removed. -/
theorem tracks_handle (tracks : observed.Tracks localId) (event : ServiceEvent) :
    (observed.handle localId event).Tracks localId := by
  unfold Observed.handle
  cases event with
  | resolved fullname decoded =>
    cases decoded with
    | none => exact ⟨tracks.services, tracks.foreign⟩
    | some peer =>
      by_cases own : peer.deviceId = localId
      · refine ⟨fun name other => ?_, ?_⟩
        · simp only [Announcements.after, Function.update_apply] at other ⊢
          rw [serviceIds_perform]
          simp only [ServiceEvent.operation, update, if_pos own]
          split at other
          · exact absurd (congrArg some own) other
          · rename_i different
            rw [if_neg different]
            exact tracks.services name other
        · rw [mdnsPeers_perform]
          simp only [ServiceEvent.operation, update, if_pos own]
          exact tracks.foreign
      · refine ⟨fun name other => ?_, ?_⟩
        · simp only [Announcements.after, Function.update_apply] at other ⊢
          rw [serviceIds_perform]
          simp only [ServiceEvent.operation, update, if_neg own, Table.find?_upsert]
          split at other
          · rename_i same
            simp [same]
          · rename_i different
            rw [if_neg (Ne.symm different), if_neg different]
            exact tracks.services name other
        · have present := isSome_find?_resolved localId observed.state own fullname localId
          rw [tracks.foreign] at present
          simpa [ServiceEvent.operation, own] using present
  | removed fullname =>
    refine ⟨fun name other => ?_, ?_⟩
    · have services : (perform localId observed.state (.remove fullname)).serviceIds =
          observed.state.serviceIds.deleteWhere fun service => service.1 = fullname := by
        rw [serviceIds_perform]
        unfold update
        dsimp only
        split <;> rfl
      simp only [Announcements.after, Function.update_apply] at other ⊢
      rw [ServiceEvent.operation, services, Table.find?_deleteKey]
      split at other
      · rename_i same
        simp [same]
      · rename_i different
        rw [if_neg different, if_neg different]
        exact tracks.services name other
    · have present := isSome_find?_removed localId observed.state fullname localId
      rw [tracks.foreign] at present
      simpa [ServiceEvent.operation] using present

/-- When the announced peers follow the services, all services are stored. -/
theorem services_of_follows (tracks : observed.Tracks localId) (follows : observed.Follows)
    (name : String) :
    (observed.state.serviceIds.find? name).map Prod.snd = observed.announced name := by
  refine tracks.services name fun own => ?_
  have present := (follows localId).mpr ⟨name, own⟩
  rw [tracks.foreign] at present
  cases present

/-- A resolved service keeps the announced peers in line exactly when it is orderly. -/
theorem follows_resolved_iff (tracks : observed.Tracks localId) (follows : observed.Follows)
    (fullname : String) (peer : PeerAdvertisement) :
    (observed.handle localId (.resolved fullname (some peer))).Follows ↔
      observed.Orderly localId (.resolved fullname (some peer)) := by
  by_cases own : peer.deviceId = localId
  · -- this device announces itself, which is not stored
    refine iff_of_false (fun later => ?_) (fun orderly => orderly.1 own)
    have after := tracks_handle localId tracks (.resolved fullname (some peer))
    have present := (later localId).mpr ⟨fullname, by
      simp [Observed.handle, Announcements.after, own]⟩
    rw [after.foreign] at present
    cases present
  · have present := isSome_find?_resolved localId observed.state own fullname
    simp only [Observed.Follows, Observed.handle, ServiceEvent.operation, present,
      Announcements.after, Function.update_apply, Observed.Orderly]
    constructor
    · intro later
      refine ⟨own, fun id announced different => ?_⟩
      obtain ⟨name, renamed⟩ := (later id).mp (Or.inl ((follows id).mpr ⟨fullname, announced⟩))
      split at renamed
      · exact absurd (Option.some.inj renamed).symm different
      · rename_i other
        exact ⟨name, other, renamed⟩
    · rintro ⟨-, orderly⟩ id
      constructor
      · intro known
        by_cases same : peer.deviceId = id
        · exact ⟨fullname, by simp [same]⟩
        · obtain ⟨name, announced⟩ := (follows id).mp (known.resolve_right same)
          by_cases renamed : name = fullname
          · subst renamed
            obtain ⟨other, different, still⟩ := orderly id announced (Ne.symm same)
            exact ⟨other, by rw [if_neg different, still]⟩
          · exact ⟨name, by rw [if_neg renamed, announced]⟩
      · rintro ⟨name, announced⟩
        split at announced
        · exact Or.inr (Option.some.inj announced)
        · exact Or.inl ((follows id).mpr ⟨name, announced⟩)

/-- A removed service keeps the announced peers in line exactly when it is orderly. -/
theorem follows_removed_iff (tracks : observed.Tracks localId) (follows : observed.Follows)
    (fullname : String) :
    (observed.handle localId (.removed fullname)).Follows ↔
      observed.Orderly localId (.removed fullname) := by
  have present := isSome_find?_removed localId observed.state fullname
  rw [services_of_follows localId tracks follows] at present
  simp only [Observed.Follows, Observed.handle, ServiceEvent.operation, present,
    Announcements.after, Function.update_apply, Observed.Orderly]
  constructor
  · intro later id announced name other still
    exact ((later id).mpr ⟨name, by rw [if_neg other, still]⟩).2 announced
  · intro orderly id
    constructor
    · rintro ⟨known, different⟩
      obtain ⟨name, announced⟩ := (follows id).mp known
      have other : name ≠ fullname := by
        rintro rfl
        exact different announced
      exact ⟨name, by rw [if_neg other, announced]⟩
    · rintro ⟨name, announced⟩
      split at announced
      · cases announced
      · rename_i other
        exact ⟨(follows id).mpr ⟨name, announced⟩, fun same => orderly id same name other announced⟩

/-- The announced peers follow the services throughout a run exactly when every event of the run is
orderly. -/
theorem presence_follows_iff (events : List ServiceEvent) :
    Run.Throughout (Observed.handle localId) .empty Observed.Follows events ↔
      Run.Along (Observed.handle localId) .empty (Observed.Orderly localId) events := by
  have steps : ∀ (observed : Observed) event, observed.Tracks localId → observed.Follows →
      ((observed.handle localId event).Follows ↔ observed.Orderly localId event) := by
    intro observed event tracks follows
    cases event with
    | resolved fullname decoded =>
      cases decoded with
      | none => exact iff_of_true follows trivial
      | some peer => exact follows_resolved_iff localId tracks follows fullname peer
    | removed fullname => exact follows_removed_iff localId tracks follows fullname
  have start : Observed.empty.Tracks localId := ⟨fun _ _ => rfl, rfl⟩
  have nothing : Observed.empty.Follows := fun id =>
    iff_of_false (by simp [Observed.empty, empty, Table.empty, Table.find?])
      (by simp [Observed.empty])
  exact Run.throughout_iff_along nothing start
    (fun _ event tracks => tracks_handle localId tracks event)
    (fun observed event tracks follows => (steps observed event tracks follows).mpr)
    (fun observed event tracks follows => (steps observed event tracks follows).mp) events

/-- Two services announce one device. When one is removed, the device is gone although the other
still announces it. -/
theorem announced_peer_missing : ¬ (Run.exec (Observed.handle ⟨"local"⟩) .empty
    [.resolved "first" (some (sampleAdvertisement "peer" "name" 1)),
      .resolved "second" (some (sampleAdvertisement "peer" "name" 2)),
      .removed "first"]).Follows := by
  intro follows
  have present := (follows ⟨"peer"⟩).mpr ⟨"second", by decide⟩
  exact absurd present (by decide)

end Discovery

end ArcRelay
