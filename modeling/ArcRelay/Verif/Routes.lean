import ArcRelay.Verif.Discovery

/-!
# Authenticated routes survive multicast

The routes of authenticated sessions are kept apart from those of the multicast
services, so that no service event can take one away. Calls that follow one
another are compared with the list of all observations since the device of each
was last forgotten: the published snapshot shows each of these devices once, with
every address it was observed with. A call that publishes nothing has changed no
address, which is why the older snapshot still serves.
-/

namespace ArcRelay

@[simp] theorem mem_sortDedup {α : Type} [LinearOrder α] {values : List α} {value : α} :
    value ∈ sortDedup values ↔ value ∈ values := by
  have sorted := List.pairwise_insertionSort (fun left right : α => left ≤ right) values
  rw [sortDedup, sorted.destutter_eq_dedup, List.mem_dedup, List.mem_insertionSort]

/-- An advertisement of the same device has all addresses of another. -/
structure PeerAdvertisement.Covers (shown peer : PeerAdvertisement) : Prop where
  device : shown.deviceId = peer.deviceId
  addresses : peer.addresses ⊆ shown.addresses
  connections : peer.connectionAddresses ⊆ shown.connectionAddresses

namespace PeerAdvertisement

theorem Covers.refl (peer : PeerAdvertisement) : peer.Covers peer :=
  ⟨rfl, List.Subset.refl _, List.Subset.refl _⟩

/-- What has all addresses of another has those of a third that the other has. -/
theorem Covers.trans {shown record peer : PeerAdvertisement} (first : shown.Covers record)
    (second : record.Covers peer) : shown.Covers peer :=
  ⟨first.device.trans second.device, List.Subset.trans second.addresses first.addresses,
    List.Subset.trans second.connections first.connections⟩

/-- A merged advertisement has the addresses of the one it was merged into. -/
theorem covers_target (target newer : PeerAdvertisement) :
    (mergeAdvertisement target newer).Covers target :=
  ⟨rfl, fun _ member => mem_sortDedup.mpr (List.mem_append_left _ member),
    fun _ member => mem_sortDedup.mpr (List.mem_append_left _ member)⟩

/-- A merged advertisement has the addresses of the one that was merged into it. -/
theorem covers_newer {target newer : PeerAdvertisement}
    (device : target.deviceId = newer.deviceId) :
    (mergeAdvertisement target newer).Covers newer :=
  ⟨device, fun _ member => mem_sortDedup.mpr (List.mem_append_right _ member),
    fun _ member => mem_sortDedup.mpr (List.mem_append_right _ member)⟩

theorem covers_of_sameDiscoveryRoute {left right : PeerAdvertisement}
    (same : sameDiscoveryRoute left right = true) : left.Covers right := by
  have route := sameDiscoveryRoute_iff.mp same
  simp only [untimed, mk.injEq] at route
  obtain ⟨device, -, -, addresses, connections, -⟩ := route
  exact ⟨device, addresses ▸ List.Subset.refl _, connections ▸ List.Subset.refl _⟩

end PeerAdvertisement

namespace Discovery

/-! ## What is observed and what is shown -/

/-- The service, and every observation of an authenticated session since its device was last
forgotten. -/
structure Watched where
  state : Discovery
  observed : List PeerAdvertisement

/-- A service that has just been started. -/
def Watched.empty : Watched := ⟨Discovery.empty, []⟩

/-- The observations after a call. -/
def observedAfter (observed : List PeerAdvertisement) : Operation → List PeerAdvertisement
  | .observeAuthenticated peer => observed ++ [peer]
  | .forgetAuthenticated id => observed.filter fun peer => peer.deviceId ≠ id
  | .resolve _ _ | .remove _ | .refresh => observed

variable (localId : DeviceId)

/-- One call that runs to its end. -/
def Watched.handle (watched : Watched) (operation : Operation) : Watched :=
  ⟨perform localId watched.state operation, observedAfter watched.observed operation⟩

/-- A published list is in order. -/
structure Tidy (snapshot : List PeerAdvertisement) : Prop where
  distinct : (snapshot.map PeerAdvertisement.deviceId).Nodup
  sorted : snapshot.Pairwise peerOrder
  foreign : ∀ shown ∈ snapshot, shown.deviceId ≠ localId

/-- What the published snapshot owes to the observations. -/
structure Watched.Routed (watched : Watched) : Prop where
  /-- A device that was observed is shown once, with every address it was observed with. -/
  shown : ∀ peer ∈ watched.observed, peer.deviceId ≠ localId →
    ∃ shown ∈ watched.state.snapshot,
      (∀ other ∈ watched.state.snapshot, other.deviceId = peer.deviceId → other = shown) ∧
        ∀ observation ∈ watched.observed, observation.deviceId = peer.deviceId →
          shown.Covers observation
  tidy : Tidy localId watched.state.snapshot

/-- The local device is in neither map. -/
structure Foreign (state : Discovery) : Prop where
  authenticated : state.authenticatedPeers.find? localId = none
  mdns : state.mdnsPeers.find? localId = none

/-- The authenticated peers have every address of the observations. -/
def Records (authenticated : PeerTable) (observed : List PeerAdvertisement) : Prop :=
  ∀ peer ∈ observed, peer.deviceId ≠ localId →
    ∃ record, authenticated.find? peer.deviceId = some record ∧ record.Covers peer

/-- A list of advertisements shows every authenticated peer with its addresses. -/
def Shows (snapshot : List PeerAdvertisement) (authenticated : PeerTable) : Prop :=
  ∀ id record, authenticated.find? id = some record → ∃ shown ∈ snapshot, shown.Covers record

/-- What holds between two calls. -/
structure Watched.Kept (watched : Watched) : Prop where
  foreign : Foreign localId watched.state
  records : Records localId watched.state.authenticatedPeers watched.observed
  shows : Shows watched.state.snapshot watched.state.authenticatedPeers
  tidy : Tidy localId watched.state.snapshot

/-! ## What a publication shows -/

theorem mem_emitted {authenticated mdns : PeerTable} {peer : PeerAdvertisement} :
    peer ∈ emitted authenticated mdns ↔
      (mergedPeers authenticated mdns).find? peer.deviceId = some peer := by
  rw [emitted, List.mem_insertionSort, Table.find?_eq_some]
  simp

theorem shows_emitted (authenticated mdns : PeerTable) :
    Shows (emitted authenticated mdns) authenticated := by
  intro id record found
  have device : record.deviceId = id := (Table.find?_eq_some.mp found).2
  subst device
  cases announced : mdns.find? record.deviceId with
  | none =>
    exact ⟨record, mem_emitted.mpr (by rw [find?_mergedPeers, found, announced]; rfl), .refl _⟩
  | some other =>
    refine ⟨mergeAdvertisement record other, mem_emitted.mpr ?_,
      PeerAdvertisement.covers_target _ _⟩
    rw [deviceId_mergeAdvertisement, find?_mergedPeers, found, announced]
    rfl

theorem tidy_emitted {state : Discovery} (foreign : Foreign localId state) :
    Tidy localId (emitted state.authenticatedPeers state.mdnsPeers) := by
  refine ⟨?_, List.pairwise_insertionSort peerOrder _, fun shown member own => ?_⟩
  · have perm := List.perm_insertionSort peerOrder
      (mergedPeers state.authenticatedPeers state.mdnsPeers).rows
    exact (perm.map PeerAdvertisement.deviceId).nodup_iff.mpr (Table.distinct _)
  · rw [mem_emitted, find?_mergedPeers, own, foreign.authenticated, foreign.mdns] at member
    cases member

/-! ## What a call changes -/

theorem find?_observed (peers : PeerTable) (peer : PeerAdvertisement) (id : DeviceId) :
    (mergeObservedPeer peers peer).2.find? id = Option.merge mergeAdvertisement (peers.find? id)
      (if peer.deviceId = id then some peer else none) := by
  rw [mergeObservedPeer_snd, Table.find?_absorb deviceId_mergeAdvertisement]

theorem absent_observed {peers : PeerTable} (absent : peers.find? localId = none)
    {peer : PeerAdvertisement} (other : peer.deviceId ≠ localId) :
    (mergeObservedPeer peers peer).2.find? localId = none := by
  rw [find?_observed, absent, if_neg other]
  rfl

theorem absent_deleted {peers : PeerTable} (absent : peers.find? localId = none) (id : DeviceId) :
    (peers.deleteWhere fun peer => peer.deviceId = id).find? localId = none := by
  rw [Table.find?_deleteKey, absent]
  split <;> rfl

theorem foreign_update {state : Discovery} (foreign : Foreign localId state)
    (operation : Operation) : Foreign localId (update localId state operation).2 := by
  unfold update
  split
  · exact foreign
  · split
    · exact foreign
    · rename_i other
      exact ⟨foreign.authenticated, absent_observed localId foreign.mdns other⟩
  · dsimp only
    split
    · exact ⟨foreign.authenticated, foreign.mdns⟩
    · exact ⟨foreign.authenticated, absent_deleted localId foreign.mdns _⟩
  · split
    · exact foreign
    · rename_i other
      exact ⟨absent_observed localId foreign.authenticated other, foreign.mdns⟩
  · exact ⟨absent_deleted localId foreign.authenticated _, foreign.mdns⟩
  · exact foreign

/-- The authenticated peers change by observations and by forgetting only. -/
theorem authenticatedPeers_update (state : Discovery) (operation : Operation) :
    (update localId state operation).2.authenticatedPeers = match operation with
      | .observeAuthenticated peer =>
        if peer.deviceId = localId then state.authenticatedPeers
        else (mergeObservedPeer state.authenticatedPeers peer).2
      | .forgetAuthenticated id =>
        state.authenticatedPeers.deleteWhere fun peer => peer.deviceId = id
      | .resolve _ _ | .remove _ | .refresh => state.authenticatedPeers := by
  cases operation with
  | resolve fullname decoded =>
    cases decoded with
    | none => rfl
    | some peer =>
      simp only [update]
      split <;> rfl
  | remove fullname =>
    simp only [update]
    split <;> rfl
  | observeAuthenticated peer =>
    simp only [update]
    split <;> rfl
  | forgetAuthenticated id => rfl
  | refresh => rfl

/-- An observation keeps the recorded addresses and adds its own. -/
theorem records_observed {authenticated : PeerTable} {observed : List PeerAdvertisement}
    (records : Records localId authenticated observed) (peer : PeerAdvertisement) :
    Records localId (mergeObservedPeer authenticated peer).2 (observed ++ [peer]) := by
  intro observation member other
  rw [find?_observed]
  rcases List.mem_append.mp member with earlier | last
  · obtain ⟨record, found, covers⟩ := records observation earlier other
    rw [found]
    split
    · exact ⟨_, rfl, (PeerAdvertisement.covers_target record peer).trans covers⟩
    · exact ⟨record, rfl, covers⟩
  · rw [List.mem_singleton] at last
    subst last
    rw [if_pos rfl]
    cases known : authenticated.find? observation.deviceId with
    | none => exact ⟨observation, rfl, .refl _⟩
    | some record =>
      have device : record.deviceId = observation.deviceId := (Table.find?_eq_some.mp known).2
      exact ⟨_, rfl, PeerAdvertisement.covers_newer device⟩

/-- Every call keeps the addresses observed since the device was last forgotten. -/
theorem records_update {watched : Watched}
    (records : Records localId watched.state.authenticatedPeers watched.observed)
    (operation : Operation) :
    Records localId (update localId watched.state operation).2.authenticatedPeers
      (observedAfter watched.observed operation) := by
  rw [authenticatedPeers_update]
  cases operation with
  | resolve fullname decoded => exact records
  | remove fullname => exact records
  | observeAuthenticated peer =>
    dsimp only [observedAfter]
    split
    · rename_i own
      intro observation member other
      rcases List.mem_append.mp member with earlier | last
      · exact records observation earlier other
      · rw [List.mem_singleton] at last
        subst last
        exact absurd own other
    · exact records_observed localId records peer
  | forgetAuthenticated id =>
    intro observation member other
    obtain ⟨earlier, kept⟩ := List.mem_filter.mp member
    have different : observation.deviceId ≠ id := by simpa using kept
    obtain ⟨record, found, covers⟩ := records observation earlier other
    exact ⟨record, by rw [Table.find?_deleteKey, if_neg different, found], covers⟩
  | refresh => exact records

/-- A call that publishes nothing changes no address of an authenticated peer. -/
theorem shows_unpublished {state : Discovery}
    (shows : Shows state.snapshot state.authenticatedPeers) {operation : Operation}
    (silent : (update localId state operation).1 = false) :
    Shows state.snapshot (update localId state operation).2.authenticatedPeers := by
  rw [authenticatedPeers_update]
  cases operation with
  | resolve fullname decoded => exact shows
  | remove fullname => exact shows
  | observeAuthenticated peer =>
    simp only [update] at silent
    dsimp only
    split at silent
    · rename_i own
      rw [if_pos own]
      exact shows
    · rename_i other
      rw [if_neg other]
      obtain ⟨observed, known, route⟩ := mergeObservedPeer_fst.mp silent
      intro id record found
      rw [find?_mergeObservedPeer known] at found
      split at found
      · cases found
        obtain ⟨shown, member, covers⟩ := shows _ observed known
        exact ⟨shown, member, covers.trans (PeerAdvertisement.covers_of_sameDiscoveryRoute route)⟩
      · exact shows id record found
  | forgetAuthenticated id =>
    dsimp only
    rw [deleteWhere_absent silent]
    exact shows
  | refresh => exact shows

/-! ## Runs -/

/-- Publishing only changes the snapshot, and a call publishes last. -/
theorem perform_cases (state : Discovery) (operation : Operation) :
    perform localId state operation = (update localId state operation).2.published ∨
      ((update localId state operation).1 = false ∧
        perform localId state operation = (update localId state operation).2) := by
  rw [perform_eq]
  cases (update localId state operation).1 with
  | true => exact Or.inl rfl
  | false => exact Or.inr ⟨rfl, rfl⟩

theorem snapshot_update (state : Discovery) (operation : Operation) :
    (update localId state operation).2.snapshot = state.snapshot := by
  unfold update
  split
  · rfl
  · split <;> rfl
  · dsimp only
    split <;> rfl
  · split <;> rfl
  · rfl
  · rfl

/-- Every call keeps what holds between two calls. -/
theorem kept_handle (watched : Watched) (operation : Operation) (kept : watched.Kept localId) :
    (watched.handle localId operation).Kept localId := by
  have foreign := foreign_update localId kept.foreign operation
  have records := records_update localId kept.records operation
  unfold Watched.handle
  rcases perform_cases localId watched.state operation with after | ⟨silent, after⟩
  · rw [after]
    exact ⟨⟨foreign.authenticated, foreign.mdns⟩, records, shows_emitted _ _,
      tidy_emitted localId foreign⟩
  · rw [after]
    have snapshot := snapshot_update localId watched.state operation
    refine ⟨foreign, records, ?_, ?_⟩
    · dsimp only
      rw [snapshot]
      exact shows_unpublished localId kept.shows silent
    · dsimp only
      rw [snapshot]
      exact kept.tidy

/-- What holds between two calls is what the snapshot owes to the observations. -/
theorem Watched.Kept.routed {watched : Watched} (kept : watched.Kept localId) :
    watched.Routed localId := by
  refine ⟨fun peer member other => ?_, kept.tidy⟩
  obtain ⟨record, found, covers⟩ := kept.records peer member other
  obtain ⟨shown, published, covered⟩ := kept.shows _ record found
  have device : shown.deviceId = peer.deviceId := covered.device.trans covers.device
  refine ⟨shown, published, fun another present same => ?_, fun observation present same => ?_⟩
  · exact List.inj_on_of_nodup_map kept.tidy.distinct present published (same.trans device.symm)
  · obtain ⟨own, known, coversOwn⟩ := kept.records observation present (same ▸ other)
    rw [same, found] at known
    cases known
    exact covered.trans coversOwn

/-- After every sequence of calls the snapshot shows every device that was observed and not
forgotten since, once and with every address it was observed with; its records are about distinct
devices other than the local one and sorted. -/
theorem authenticated_routes_survive (operations : List Operation) :
    (Run.exec (Watched.handle localId) .empty operations).Routed localId := by
  have start : Watched.empty.Kept localId :=
    ⟨⟨rfl, rfl⟩, nofun, nofun, ⟨List.nodup_nil, List.Pairwise.nil, nofun⟩⟩
  exact (Run.invariant_always start (kept_handle localId) operations).last.routed

end Discovery

end ArcRelay
