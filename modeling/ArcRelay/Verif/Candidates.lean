import ArcRelay.Verif.Merging
import ArcRelay.Verif.Racing

/-!
# Which routes are dialled

Discovery collects every address of a device in one sorted list and never drops one,
and a race dials the first sixteen endpoints of the list it is given. So a route is
dialled as long as fewer than sixteen other endpoints sort below it, however new it is;
with sixteen below it, even the newest authenticated route is left out.
-/

namespace ArcRelay

open Async

/-! ## The first sixteen endpoints -/

section UniqueEndpoints

variable {unique addresses : List SocketAddr}

theorem card_toFinset_le {part whole : List SocketAddr} (subset : part ⊆ whole) :
    part.toFinset.card ≤ whole.toFinset.card := by
  refine Finset.card_le_card fun endpoint member => ?_
  rw [List.mem_toFinset] at member ⊢
  exact subset member

theorem subset_uniqueEndpoints : unique ⊆ uniqueEndpoints unique addresses := by
  induction addresses generalizing unique with
  | nil => exact List.Subset.refl _
  | cons address later ih =>
    rw [uniqueEndpoints]
    dsimp only
    split
    · exact ih
    · split
      · exact List.subset_append_left _ _
      · exact List.Subset.trans (List.subset_append_left _ _) ih

variable {address : SocketAddr}

/-- What is dialled are addresses of the list in canonical form. -/
theorem mem_of_mem_uniqueEndpoints {unique addresses : List SocketAddr}
    (member : address ∈ uniqueEndpoints unique addresses) :
    address ∈ unique ∨ address ∈ addresses.map canonicalEndpoint := by
  induction addresses generalizing unique with
  | nil => exact .inl member
  | cons first addresses induction =>
    have grown : address ∈ unique ++ [canonicalEndpoint first] →
        address ∈ unique ∨ address ∈ (first :: addresses).map canonicalEndpoint := by
      intro inside
      rcases List.mem_concat_iff.mp inside with earlier | last
      · exact .inl earlier
      · exact .inr (List.mem_cons.mpr (.inl last))
    have further : ∀ more, address ∈ uniqueEndpoints more addresses → address ∈ more ∨
        address ∈ (first :: addresses).map canonicalEndpoint := fun more later =>
      (induction later).imp_right (List.mem_cons_of_mem _)
    rw [uniqueEndpoints] at member
    dsimp only at member
    split at member
    · exact further unique member
    · split at member
      · exact grown member
      · exact (further _ member).elim grown .inr

theorem length_uniqueEndpoints_le (few : unique.length < 16) :
    (uniqueEndpoints unique addresses).length ≤ 16 := by
  induction addresses generalizing unique with
  | nil => exact few.le
  | cons address later ih =>
    rw [uniqueEndpoints]
    dsimp only
    split
    · exact ih few
    · split
      · rename_i full
        exact full.le
      · rename_i notFull
        rw [List.length_append, List.length_singleton] at notFull
        refine ih ?_
        rw [List.length_append, List.length_singleton]
        omega

/-- An endpoint is chosen if fewer than sixteen different ones were chosen or come before it. -/
theorem mem_uniqueEndpoints {before later : List SocketAddr} (distinct : unique.Nodup)
    (few : (unique ++ before.map canonicalEndpoint).toFinset.card < 16) :
    canonicalEndpoint address ∈ uniqueEndpoints unique (before ++ address :: later) := by
  induction before generalizing unique with
  | nil =>
    rw [List.nil_append, uniqueEndpoints]
    dsimp only
    split
    · rename_i chosen
      exact subset_uniqueEndpoints chosen
    · split
      · simp
      · exact subset_uniqueEndpoints (by simp)
  | cons first before ih =>
    rw [List.cons_append, uniqueEndpoints]
    dsimp only
    split
    · refine ih distinct (lt_of_le_of_lt (card_toFinset_le fun endpoint member => ?_) few)
      simp only [List.map_cons, List.mem_append, List.mem_cons] at member ⊢
      exact member.imp_right Or.inr
    · rename_i fresh
      have longer : (unique ++ [canonicalEndpoint first]).Nodup := by
        rw [← List.concat_eq_append]
        exact distinct.concat fresh
      have few' : ((unique ++ [canonicalEndpoint first]) ++
          before.map canonicalEndpoint).toFinset.card < 16 := by
        simpa using few
      split
      · -- sixteen different endpoints are more than there are
        rename_i full
        have counted : (unique ++ [canonicalEndpoint first]).toFinset.card = 16 := by
          rw [List.toFinset_card_of_nodup longer, full]
        have bound := card_toFinset_le (List.subset_append_left
          (unique ++ [canonicalEndpoint first]) (before.map canonicalEndpoint))
        omega
      · exact ih longer few'

/-- Once sixteen different endpoints have been chosen nothing further is. -/
theorem subset_of_uniqueEndpoints {before later : List SocketAddr} (few : unique.length < 16)
    (many : 16 ≤ (unique ++ before.map canonicalEndpoint).toFinset.card) :
    uniqueEndpoints unique (before ++ later) ⊆ unique ++ before.map canonicalEndpoint := by
  induction before generalizing unique with
  | nil =>
    have bound := List.toFinset_card_le (unique ++ ([] : List SocketAddr).map canonicalEndpoint)
    rw [List.map_nil, List.append_nil] at bound many
    omega
  | cons first before ih =>
    rw [List.cons_append, uniqueEndpoints]
    dsimp only
    split
    · rename_i chosen
      have same : (unique ++ (first :: before).map canonicalEndpoint).toFinset =
          (unique ++ before.map canonicalEndpoint).toFinset := by
        simp [chosen]
      refine List.Subset.trans (ih few (same ▸ many)) fun endpoint member => ?_
      rw [List.map_cons]
      exact (List.mem_append.mp member).elim (List.mem_append_left _) fun inside =>
        List.mem_append_right _ (List.mem_cons_of_mem _ inside)
    · have rest : unique ++ (first :: before).map canonicalEndpoint =
          (unique ++ [canonicalEndpoint first]) ++ before.map canonicalEndpoint := by simp
      rw [rest] at many ⊢
      split
      · exact List.subset_append_left _ _
      · rename_i notFull
        rw [List.length_append, List.length_singleton] at notFull
        refine ih ?_ many
        rw [List.length_append, List.length_singleton]
        omega

/-- The different endpoints of a list before the first that is an address in canonical form. -/
def endpointsBefore (addresses : List SocketAddr) (address : SocketAddr) : Finset SocketAddr :=
  ((addresses.takeWhile fun other => canonicalEndpoint other ≠ canonicalEndpoint address).map
    canonicalEndpoint).toFinset

/-- An address of the list is chosen exactly if fewer than sixteen different endpoints come before
it. -/
theorem mem_uniqueEndpoints_iff (listed : address ∈ addresses) :
    canonicalEndpoint address ∈ uniqueEndpoints [] addresses ↔
      (endpointsBefore addresses address).card < 16 := by
  let differs : SocketAddr → Bool := fun other =>
    canonicalEndpoint other ≠ canonicalEndpoint address
  obtain ⟨first, later, split, same⟩ : ∃ first later,
      addresses = addresses.takeWhile differs ++ first :: later ∧
        canonicalEndpoint first = canonicalEndpoint address := by
    cases rest : addresses.dropWhile differs with
    | nil =>
      have all := List.dropWhile_eq_nil_iff.mp rest address listed
      simp [differs] at all
    | cons first later =>
      have whole := List.takeWhile_append_dropWhile (p := differs) (l := addresses)
      rw [rest] at whole
      have stops := List.head_dropWhile_not differs (l := addresses) (by simp [rest])
      simp only [rest, List.head_cons] at stops
      exact ⟨first, later, whole.symm, by simpa [differs] using stops⟩
  constructor
  · intro chosen
    by_contra many
    have full : 16 ≤ ([] ++ (addresses.takeWhile differs).map canonicalEndpoint).toFinset.card :=
      not_lt.mp many
    rw [split] at chosen
    have inside := subset_of_uniqueEndpoints (by decide) full chosen
    obtain ⟨other, member, equal⟩ := List.mem_map.mp inside
    have unequal := List.mem_takeWhile_imp member
    simp [differs, equal] at unequal
  · intro few
    rw [split, ← same]
    exact mem_uniqueEndpoints List.nodup_nil few

theorem card_endpointsBefore_le {known : List SocketAddr} (sorted : addresses.Pairwise (· < ·))
    (listed : address ∈ addresses) (among : addresses ⊆ known) :
    (endpointsBefore addresses address).card ≤
      ((known.filter (· < address)).map canonicalEndpoint).toFinset.card := by
  refine card_toFinset_le (List.map_subset _ fun other member => ?_)
  obtain ⟨before, later, rfl⟩ := List.append_of_mem listed
  have earlier : other ∈ before := by
    rw [List.takeWhile_append] at member
    split at member
    · simpa using member
    · exact (List.takeWhile_prefix _).subset member
  have below := (List.pairwise_append.mp sorted).2.2 other earlier address List.mem_cons_self
  exact List.mem_filter.mpr ⟨among (List.mem_append_left _ earlier), by simpa using below⟩

theorem uniqueEndpoints_nonempty (listed : address ∈ addresses) :
    (uniqueEndpoints [] addresses).isEmpty = false := by
  cases addresses with
  | nil => cases listed
  | cons first later =>
    have chosen : canonicalEndpoint first ∈ uniqueEndpoints [] ([] ++ first :: later) :=
      mem_uniqueEndpoints List.nodup_nil (by decide)
    rw [List.isEmpty_eq_false_iff]
    exact List.ne_nil_of_mem chosen

end UniqueEndpoints

namespace Discovery

/-! ## Where the shown addresses come from -/

/-- The addresses a call brings for a device. -/
def Operation.routesTo (id : DeviceId) : Operation → List SocketAddr
  | .observeAuthenticated peer | .resolve _ (some peer) =>
    if peer.deviceId = id then peer.connectionAddresses else []
  | .resolve _ none | .remove _ | .forgetAuthenticated _ | .refresh => []

/-- An observation is made by `remember_authenticated_session`. -/
def Operation.Remembers : Operation → Prop
  | .observeAuthenticated peer => ∃ session now, peer = Runtime.sessionAdvertisement session now
  | .resolve _ _ | .remove _ | .forgetAuthenticated _ | .refresh => True

/-- A call that neither observes a device nor forgets it. -/
def Operation.Passes (id : DeviceId) : Operation → Prop
  | .observeAuthenticated peer => peer.deviceId ≠ id
  | .forgetAuthenticated other => other ≠ id
  | .resolve _ _ | .remove _ | .refresh => True

/-- The addresses of a record are known. -/
def Within (known : SocketAddr → Prop) (record : PeerAdvertisement) : Prop :=
  ∀ address ∈ record.connectionAddresses, known address

/-- The addresses of a record are known and sorted. -/
def SortedWithin (known : SocketAddr → Prop) (record : PeerAdvertisement) : Prop :=
  Within known record ∧ record.connectionAddresses.Pairwise (· < ·)

/-- The addresses of one device that the service stores and shows are known, and sorted once the
device was authenticated. -/
structure Sourced (id : DeviceId) (known : SocketAddr → Prop) (state : Discovery) : Prop where
  authenticated : ∀ record ∈ state.authenticatedPeers.find? id, SortedWithin known record
  mdns : ∀ record ∈ state.mdnsPeers.find? id, Within known record
  shown : ∀ shown ∈ state.snapshot, shown.deviceId = id → Within known shown ∧
    ((state.authenticatedPeers.find? id).isSome → SortedWithin known shown)

variable {known : SocketAddr → Prop} {id : DeviceId}

theorem sortedWithin_merge {target newer : PeerAdvertisement} (first : Within known target)
    (second : Within known newer) : SortedWithin known (mergeAdvertisement target newer) := by
  refine ⟨fun address member => ?_, (sorted_mergeAdvertisement target newer).connections⟩
  rcases List.mem_append.mp (mem_sortDedup.mp member) with own | new
  · exact first address own
  · exact second address new

theorem within_merge {first second : Option PeerAdvertisement}
    (left : ∀ record ∈ first, Within known record)
    (right : ∀ record ∈ second, Within known record) :
    ∀ record ∈ Option.merge mergeAdvertisement first second, Within known record := by
  intro record found
  cases first with
  | none =>
    cases second with
    | none => cases found
    | some newer => exact right record found
  | some target =>
    cases second with
    | none => exact left record found
    | some newer =>
      cases found
      exact (sortedWithin_merge (left target rfl) (right newer rfl)).1

theorem sortedWithin_of_merge {first second : Option PeerAdvertisement}
    (left : ∀ record ∈ first, SortedWithin known record)
    (right : ∀ record ∈ second, Within known record) (present : first.isSome) :
    ∀ record ∈ Option.merge mergeAdvertisement first second, SortedWithin known record := by
  intro record found
  cases first with
  | none => cases present
  | some target =>
    cases second with
    | none => exact left record found
    | some newer =>
      cases found
      exact sortedWithin_merge (left target rfl).1 (right newer rfl)

variable {peer : PeerAdvertisement}

/-- The observation of an authenticated session keeps the records known and sorted. -/
theorem sortedWithin_observed {peers : PeerTable}
    (stored : ∀ record ∈ peers.find? id, SortedWithin known record)
    (remembers : (Operation.observeAuthenticated peer).Remembers)
    (brings : ∀ address ∈ (Operation.observeAuthenticated peer).routesTo id, known address) :
    ∀ record ∈ (mergeObservedPeer peers peer).2.find? id, SortedWithin known record := by
  rw [find?_observed]
  obtain ⟨session, now, rfl⟩ := remembers
  simp only [Operation.routesTo] at brings
  split
  · rename_i same
    rw [if_pos same] at brings
    cases held : peers.find? id with
    | none =>
      rintro record ⟨⟩
      exact ⟨brings, List.pairwise_singleton _ _⟩
    | some target =>
      rintro record ⟨⟩
      exact sortedWithin_merge (stored target held).1 brings
  · cases held : peers.find? id with
    | none => exact nofun
    | some target => exact fun record found => stored record (held.trans found)

theorem within_observed {peers : PeerTable}
    (stored : ∀ record ∈ peers.find? id, Within known record)
    (brings : ∀ address ∈ if peer.deviceId = id then peer.connectionAddresses else [],
      known address) :
    ∀ record ∈ (mergeObservedPeer peers peer).2.find? id, Within known record := by
  rw [find?_observed]
  refine within_merge stored fun record new => ?_
  split at new
  · rename_i same
    rw [if_pos same] at brings
    cases new
    exact brings
  · cases new

theorem forall_deleted {property : PeerAdvertisement → Prop} {peers : PeerTable}
    (stored : ∀ record ∈ peers.find? id, property record) (other : DeviceId) :
    ∀ record ∈ (peers.deleteWhere fun peer => peer.deviceId = other).find? id,
      property record := by
  rw [Table.find?_deleteKey]
  split
  · exact nofun
  · exact stored

variable (localId : DeviceId)

variable {operation : Operation} {state : Discovery}

theorem sortedWithin_update
    (stored : ∀ record ∈ state.authenticatedPeers.find? id, SortedWithin known record)
    (remembers : operation.Remembers)
    (brings : ∀ address ∈ operation.routesTo id, known address) :
    ∀ record ∈ (update localId state operation).2.authenticatedPeers.find? id,
      SortedWithin known record := by
  rw [authenticatedPeers_update]
  cases operation with
  | observeAuthenticated peer =>
    dsimp only
    split
    · exact stored
    · exact sortedWithin_observed stored remembers brings
  | forgetAuthenticated other => exact forall_deleted stored other
  | resolve fullname decoded => exact stored
  | remove fullname => exact stored
  | refresh => exact stored

theorem within_update (stored : ∀ record ∈ state.mdnsPeers.find? id, Within known record)
    (brings : ∀ address ∈ operation.routesTo id, known address) :
    ∀ record ∈ (update localId state operation).2.mdnsPeers.find? id, Within known record := by
  unfold update
  split
  · exact stored
  · split
    · exact stored
    · exact within_observed stored brings
  · dsimp only
    split
    · exact stored
    · exact forall_deleted stored _
  · split <;> exact stored
  · exact stored
  · exact stored

/-- A call that publishes nothing authenticates no new device. -/
theorem isSome_of_silent (silent : (update localId state operation).1 = false)
    (present : ((update localId state operation).2.authenticatedPeers.find? id).isSome) :
    (state.authenticatedPeers.find? id).isSome := by
  rw [authenticatedPeers_update] at present
  cases operation with
  | observeAuthenticated peer =>
    simp only [update] at silent
    dsimp only at present
    split at silent
    · rename_i own
      rwa [if_pos own] at present
    · rename_i other
      rw [if_neg other] at present
      obtain ⟨observed, held, -⟩ := mergeObservedPeer_fst.mp silent
      rw [find?_mergeObservedPeer held] at present
      split at present
      · rename_i same
        rw [← same, held]
        rfl
      · exact present
  | forgetAuthenticated other =>
    dsimp only at present
    rw [Table.find?_deleteKey] at present
    split at present
    · cases present
    · exact present
  | resolve fullname decoded => exact present
  | remove fullname => exact present
  | refresh => exact present

/-- Every call keeps the addresses of a device known. -/
theorem sourced_perform (sourced : Sourced id known state) (remembers : operation.Remembers)
    (brings : ∀ address ∈ operation.routesTo id, known address) :
    Sourced id known (perform localId state operation) := by
  have authenticated := sortedWithin_update localId sourced.authenticated remembers brings
  have mdns := within_update localId sourced.mdns brings
  rcases perform_cases localId state operation with after | ⟨silent, after⟩
  · rw [after]
    refine ⟨authenticated, mdns, fun shown member same => ?_⟩
    have merged := mem_emitted.mp member
    rw [find?_mergedPeers, same] at merged
    exact ⟨within_merge (fun record found => (authenticated record found).1) mdns shown merged,
      fun present => sortedWithin_of_merge authenticated mdns present shown merged⟩
  · rw [after]
    refine ⟨authenticated, mdns, fun shown member same => ?_⟩
    rw [snapshot_update] at member
    obtain ⟨within, sorted⟩ := sourced.shown shown member same
    exact ⟨within, fun present => sorted (isSome_of_silent localId silent present)⟩

theorem sourced_run {operations : List Operation}
    (remembers : ∀ operation ∈ operations, operation.Remembers) :
    Sourced id (· ∈ operations.flatMap (Operation.routesTo id))
      (Run.exec (perform localId) empty operations) := by
  have initial : Sourced id (· ∈ operations.flatMap (Operation.routesTo id)) empty :=
    ⟨nofun, nofun, nofun⟩
  have along : Run.Along (perform localId) empty (fun _ operation => operation ∈ operations)
      operations := fun done operation isPrefix => isPrefix.subset (by simp)
  refine (Run.invariant initial (fun state operation sourced member => ?_) along).last
  exact sourced_perform localId sourced (remembers operation member) fun address brought =>
    List.mem_flatMap.mpr ⟨operation, member, brought⟩

/-! ## The newest authenticated route -/

theorem state_watched (operations : List Operation) :
    (Run.exec (Watched.handle localId) .empty operations).state =
      Run.exec (perform localId) empty operations := by
  induction operations using List.reverseRecOn with
  | nil => rfl
  | append_singleton operations operation ih =>
    rw [Run.exec_concat, Run.exec_concat, Watched.handle, ih]

/-- An observation is still owed after calls that do not forget its device. -/
theorem observed_passed {watched : Watched} (observed : peer ∈ watched.observed)
    {later : List Operation} (passes : ∀ operation ∈ later, operation.Passes peer.deviceId) :
    peer ∈ (Run.exec (Watched.handle localId) watched later).observed := by
  induction later using List.reverseRecOn with
  | nil => exact observed
  | append_singleton later operation ih =>
    have before := ih fun other member => passes other (List.mem_append_left _ member)
    have passed := passes operation (by simp)
    rw [Run.exec_concat]
    cases operation with
    | observeAuthenticated other => exact List.mem_append_left _ before
    | forgetAuthenticated other =>
      exact List.mem_filter.mpr ⟨before, by simpa using fun same => passed same.symm⟩
    | resolve fullname decoded => exact before
    | remove fullname => exact before
    | refresh => exact before

/-- The peer `DiscoveryService::peer` returns is shown. -/
theorem mem_snapshot_of_peer (found : state.peer id = some peer) :
    peer ∈ state.snapshot ∧ peer.deviceId = id :=
  ⟨List.mem_of_find?_eq_some found, by simpa using List.find?_some found⟩

/-- After any calls the service shows the device of the last authenticated session with the address
of this session, among sorted addresses that the calls brought. -/
theorem newest_route_shown {earlier later : List Operation} {session : Session} {now : Int}
    (remembers : ∀ operation ∈ earlier ++ later, operation.Remembers)
    (passes : ∀ operation ∈ later, operation.Passes session.peer.deviceId)
    (foreign : session.peer.deviceId ≠ localId) {operations : List Operation}
    (sequence : operations = earlier ++
      .observeAuthenticated (Runtime.sessionAdvertisement session now) :: later) :
    ∃ peer, (Run.exec (perform localId) empty operations).peer session.peer.deviceId = some peer ∧
      Runtime.dialAddress session ∈ peer.connectionAddresses ∧
        SortedWithin (· ∈ operations.flatMap (Operation.routesTo session.peer.deviceId)) peer := by
  have routed : (Run.exec (Watched.handle localId) .empty operations).Kept localId := by
    have start : Watched.empty.Kept localId :=
      ⟨⟨rfl, rfl⟩, nofun, nofun, ⟨List.nodup_nil, List.Pairwise.nil, nofun⟩⟩
    exact (Run.invariant_always start (kept_handle localId) operations).last
  have observed : Runtime.sessionAdvertisement session now ∈
      (Run.exec (Watched.handle localId) .empty operations).observed := by
    rw [sequence, ← List.singleton_append, ← List.append_assoc, Run.exec_append, Run.exec_concat]
    exact observed_passed localId (List.mem_append_right _ (List.mem_singleton_self _)) passes
  have sourced : Sourced session.peer.deviceId _ (Run.exec (perform localId) empty operations) :=
    sourced_run localId fun operation member => by
      rw [sequence] at member
      rcases List.mem_append.mp member with before | after
      · exact remembers operation (List.mem_append_left _ before)
      · rcases List.mem_cons.mp after with rfl | after
        · exact ⟨session, now, rfl⟩
        · exact remembers operation (List.mem_append_right _ after)
  obtain ⟨record, found, covers⟩ := routed.records _ observed foreign
  obtain ⟨shown, published, covered⟩ := routed.shows _ record found
  rw [state_watched] at found published
  have device : shown.deviceId = session.peer.deviceId := covered.device.trans covers.device
  -- the record that is found first is the only one of the device
  obtain ⟨peer, first⟩ : ∃ peer, (Run.exec (perform localId) empty operations).peer
      session.peer.deviceId = some peer := by
    cases first : (Run.exec (perform localId) empty operations).peer session.peer.deviceId with
    | some peer => exact ⟨peer, rfl⟩
    | none =>
      have absent := List.find?_eq_none.mp first shown published
      simp [device] at absent
  obtain ⟨member, same⟩ := mem_snapshot_of_peer first
  have distinct := routed.tidy.distinct
  rw [state_watched] at distinct
  obtain rfl : peer = shown :=
    List.inj_on_of_nodup_map distinct member published (same.trans device.symm)
  refine ⟨peer, first, (covered.trans covers).connections List.mem_cons_self, ?_⟩
  exact (sourced.shown peer published device).2 (Option.isSome_iff_exists.mpr ⟨record, found⟩)

end Discovery

namespace Runtime

variable {self : Runtime} {past : List Moment}

/-! ## What a race is started with -/

variable {candidates : List SocketAddr}

theorem offering_call {call : Call} {ε : Type}
    (other : ∀ expected kind others recovery, call ≠ .startRace expected kind others recovery) :
    Async.Ensures (offering candidates) (fun _ _ => True) past
      (Async.call call : Async Call.Reply ε call.Reply) :=
  ensures_call (fun expected kind others recovery same =>
    absurd same (other expected kind others recovery)) fun _ _ _ => trivial

theorem offering_refuse {condition : Bool} {ε : Type} {error : ε} :
    Async.Ensures (offering candidates) (fun _ _ => True) past
      (Async.refuse condition error : Async Call.Reply ε Unit) :=
  ensures_refuse fun _ => trivial

/-- `connect` races the first sixteen endpoints of the advertisement. -/
theorem offering_connect (peer : PeerAdvertisement) (kind : SessionKind) :
    Async.Ensures (offering (uniqueEndpoints [] (dialAddresses peer))) (fun _ _ => True) past
      (self.connect peer kind) := by
  have trusts : ∀ now, Async.Ensures (offering (uniqueEndpoints [] (dialAddresses peer)))
      (fun _ _ => True) now (self.requireTrust kind peer.deviceId peer.publicKey) := by
    intro now
    unfold requireTrust
    split
    · exact ensures_pure trivial
    · exact ensures_bind (offering_of_returning (returning_of_asiding (asiding_requirePaired _ _)))
        fun _ _ _ => ensures_pure trivial
  have dials : ∀ now, Async.Ensures (offering (uniqueEndpoints [] (dialAddresses peer)))
      (fun _ _ => True) now (activeOr peer.deviceId kind
        (self.raceEndpoints (dialAddresses peer) (.advertised peer) kind .mdns)) := by
    intro now
    refine ensures_bind (offering_call nofun) fun _ active _ => ?_
    cases active with
    | some session => exact ensures_pure trivial
    | none =>
      exact (newReturned_raceEndpoints _ _ _ _).mono fun _ _ _ _ _ => trivial
  refine ensures_bind offering_refuse fun _ _ _ => ?_
  refine ensures_bind (trusts _) fun _ _ _ => ?_
  refine ensures_bind (offering_call nofun) fun _ gate _ => ?_
  refine ensures_bind (offering_call nofun) fun _ _ _ => ?_
  refine ensures_bind (ensures_result (dials _)) fun _ _ _ => ?_
  exact ensures_bind (offering_call nofun) fun _ _ _ => ensures_ofExcept fun _ _ =>
    trivial

/-! ## The newest route -/

theorem leads_raceEndpointsOn {addresses : List SocketAddr} {expected : ExpectedPeer}
    {kind : SessionKind} {source : EndpointSource} {recovery : Bool}
    (dialable : (uniqueEndpoints [] addresses).isEmpty = false) (world : World) (race : Nat) :
    ∃ rest, Program.Leads (self.raceEndpointsOn addresses expected kind source recovery).run
      [⟨world, .startRace expected kind (uniqueEndpoints [] addresses) recovery, race⟩] rest := by
  unfold raceEndpointsOn
  dsimp only
  rw [dialable]
  exact ⟨_, .cons _ _ _ _ _ _ (.nil _)⟩

/-- A dial that needs no pairing and finds no session starts a race, if there is an endpoint. -/
theorem connect_starts_race {peer : PeerAdvertisement} {kind : SessionKind}
    (unpaired : kind.openToUnpaired = true) (foreign : peer.deviceId ≠ self.deviceId)
    (dialable : (uniqueEndpoints [] (dialAddresses peer)).isEmpty = false) (world : World) :
    ∃ moments rest, Program.Leads (self.connect peer kind).run moments rest ∧
      ⟨world, .startRace (.advertised peer) kind (uniqueEndpoints [] (dialAddresses peer)) false,
        0⟩ ∈ moments := by
  have other : (peer.deviceId == self.deviceId) = false := by simpa using foreign
  obtain ⟨rest, races⟩ : ∃ rest, Program.Leads (self.raceEndpointsOn (dialAddresses peer)
      (.advertised peer) kind .mdns false).run [⟨world, .startRace (.advertised peer) kind
        (uniqueEndpoints [] (dialAddresses peer)) false, 0⟩] rest :=
    leads_raceEndpointsOn dialable world 0
  obtain ⟨looked, looks⟩ : ∃ rest, Program.Leads (activeOr peer.deviceId kind (self.raceEndpoints
      (dialAddresses peer) (.advertised peer) kind .mdns)).run
      [⟨world, .active peer.deviceId kind, none⟩, ⟨world, .startRace (.advertised peer) kind
        (uniqueEndpoints [] (dialAddresses peer)) false, 0⟩] rest :=
    ⟨_, .cons _ _ _ _ _ _ (races.bind _)⟩
  unfold connect requireTrust
  rw [other, unpaired, if_pos rfl]
  refine ⟨_, _, .cons world (Call.dialGate (peer.deviceId, kind)) _ 0 _ _
    (.cons world (Call.lockGate 0) _ () _ _ ((looks.bind _).bind _)), ?_⟩
  simp

/-- After any calls the service shows the device of the last authenticated session. Every race that
`connect_discovered` then starts has at most sixteen candidates with the address of this session in
canonical form among them, exactly if fewer than sixteen different endpoints come before it in the
sorted list that is shown. No more of them come before it than sort below it in what the calls
brought. -/
theorem newest_route_dialled {earlier later : List Discovery.Operation} {session : Session}
    {now : Int} (remembers : ∀ operation ∈ earlier ++ later, operation.Remembers)
    (passes : ∀ operation ∈ later, operation.Passes session.peer.deviceId)
    (foreign : session.peer.deviceId ≠ self.deviceId) {operations : List Discovery.Operation}
    (sequence : operations = earlier ++
      .observeAuthenticated (sessionAdvertisement session now) :: later) :
    ∃ peer, (Run.exec (Discovery.perform self.deviceId) .empty operations).peer
        session.peer.deviceId = some peer ∧
      ((∀ (kind : SessionKind) (moments : List Moment)
          (rest : Program Call.Reply (Except NetworkError Session)),
          Program.Leads (self.connectDiscovered
            (Run.exec (Discovery.perform self.deviceId) .empty operations) session.peer.deviceId
            kind).run moments rest →
          ∀ world expected kind candidates recovery race,
            ⟨world, .startRace expected kind candidates recovery, race⟩ ∈ moments →
              candidates.length ≤ 16 ∧ canonicalEndpoint (dialAddress session) ∈ candidates) ↔
        (endpointsBefore peer.connectionAddresses (dialAddress session)).card < 16) ∧
      (endpointsBefore peer.connectionAddresses (dialAddress session)).card ≤
        (((operations.flatMap (Discovery.Operation.routesTo session.peer.deviceId)).filter
          (· < dialAddress session)).map canonicalEndpoint).toFinset.card := by
  obtain ⟨peer, found, listed, within, sorted⟩ := Discovery.newest_route_shown self.deviceId
    remembers passes foreign sequence
  have dialled : dialAddresses peer = peer.connectionAddresses := by
    rw [dialAddresses, if_neg]
    simpa using List.ne_nil_of_mem listed
  refine ⟨peer, found, ?_, card_endpointsBefore_le sorted listed fun _ => within _⟩
  rw [← mem_uniqueEndpoints_iff listed, ← dialled]
  simp only [connectDiscovered, found]
  constructor
  · intro every
    have device : peer.deviceId ≠ self.deviceId :=
      (Discovery.mem_snapshot_of_peer found).2 ▸ foreign
    obtain ⟨moments, rest, leads, started⟩ := connect_starts_race
      (show SessionKind.openToUnpaired .pairing = true from rfl) device
      (uniqueEndpoints_nonempty (dialled ▸ listed)) (World.fresh .empty)
    exact (every .pairing moments rest leads _ _ _ _ _ _ started).2
  · intro chosen kind moments rest leads world expected sort candidates recovery race started
    have offers : Async.Ensures (offering (uniqueEndpoints [] (dialAddresses peer)))
        (fun _ _ => True) [] (self.connect peer kind) := offering_connect peer kind
    obtain ⟨_, guaranteed⟩ := Program.Ensures.calls offers leads (fun _ _ _ => trivial) _ started
    obtain rfl := guaranteed expected sort candidates recovery rfl
    exact ⟨length_uniqueEndpoints_le (by decide), chosen⟩

/-- The runtime that dials. -/
def dialler : Runtime := .sample (.sample [] ⟨none, []⟩) "alice" 0

/-- Bob, authenticated from a host. -/
def seenFrom (host : BitVec 32) : Session :=
  { Session.sample "bob" "bob" 1 .pairing 7 false with connection := ⟨7, .v4 host 9, none, none⟩ }

/-- Bob announces sixteen hosts from a given one on. -/
def announces (first : Nat) : Discovery.Operation :=
  .resolve "service" (some { Discovery.sampleAdvertisement "bob" "bob" 1 with
    connectionAddresses := (List.range 16).map fun host => .v4 (BitVec.ofNat 32 (first + host)) 9 })

/-- What the service shows of Bob after sixteen announced hosts and an authentication from another.
-/
def shownBob (first : Nat) (host : BitVec 32) : Discovery :=
  Run.exec (Discovery.perform dialler.deviceId) .empty
    [announces first, .observeAuthenticated (sessionAdvertisement (seenFrom host) 2)]

/-- Bob is dialled for pairing, and a race is started with the endpoints of what is shown. -/
theorem race_for_bob {first : Nat} {host : BitVec 32} {peer : PeerAdvertisement}
    (found : (shownBob first host).peer ⟨"bob"⟩ = some peer) (foreign : peer.deviceId = ⟨"bob"⟩)
    (dialable : (uniqueEndpoints [] (dialAddresses peer)).isEmpty = false) :
    ∃ moments rest, Program.Leads (dialler.connectDiscovered (shownBob first host) ⟨"bob"⟩
      .pairing).run moments rest ∧ ⟨World.fresh .empty, .startRace (.advertised peer) .pairing
        (uniqueEndpoints [] (dialAddresses peer)) false, 0⟩ ∈ moments := by
  have other : peer.deviceId ≠ dialler.deviceId := by
    rw [foreign]
    decide
  simp only [connectDiscovered, found]
  exact connect_starts_race rfl other dialable _

/-- Bob's newest address sorts below the sixteen announced ones: it is dialled. -/
theorem newest_route_dialled_low : ∃ (moments : List Moment) (rest : _),
    Program.Leads (dialler.connectDiscovered (shownBob 100 5) ⟨"bob"⟩ .pairing).run moments rest ∧
      ∃ world expected candidates race,
        ⟨world, .startRace expected .pairing candidates false, race⟩ ∈ moments ∧
          candidates.length ≤ 16 ∧ canonicalEndpoint (dialAddress (seenFrom 5)) ∈ candidates := by
  obtain ⟨peer, found, device, dialable⟩ : ∃ peer, (shownBob 100 5).peer ⟨"bob"⟩ = some peer ∧
      peer.deviceId = ⟨"bob"⟩ ∧ (uniqueEndpoints [] (dialAddresses peer)).isEmpty = false :=
    ⟨_, rfl, by decide +kernel, by decide +kernel⟩
  obtain ⟨moments, rest, leads, started⟩ := race_for_bob found device dialable
  have remembers : ∀ operation ∈ [announces 100] ++ [], operation.Remembers := by
    simp [announces, Discovery.Operation.Remembers]
  refine ⟨moments, rest, leads, _, _, _, _, started, ?_⟩
  have foreign : (seenFrom 5).peer.deviceId ≠ dialler.deviceId := by decide
  have sequence : [announces 100, .observeAuthenticated (sessionAdvertisement (seenFrom 5) 2)] =
      [announces 100] ++ .observeAuthenticated (sessionAdvertisement (seenFrom 5) 2) :: [] := rfl
  obtain ⟨_, _, chosen, bound⟩ := newest_route_dialled remembers (by simp) foreign sequence
  exact chosen.mpr (lt_of_le_of_lt bound (by decide +kernel)) _ _ _ leads _ _ _ _ _ _ started

/-- Bob announced sixteen hosts and was then authenticated from one that sorts above them: the race
does not dial it. -/
theorem newest_route_left_out : ∃ (moments : List Moment) (rest : _),
    Program.Leads (dialler.connectDiscovered (shownBob 100 200) ⟨"bob"⟩ .pairing).run moments
      rest ∧
      ∃ world expected candidates race,
        ⟨world, .startRace expected .pairing candidates false, race⟩ ∈ moments ∧
          canonicalEndpoint (dialAddress (seenFrom 200)) ∉ candidates := by
  obtain ⟨peer, found, device, dialable, missing⟩ : ∃ peer,
      (shownBob 100 200).peer ⟨"bob"⟩ = some peer ∧ peer.deviceId = ⟨"bob"⟩ ∧
        (uniqueEndpoints [] (dialAddresses peer)).isEmpty = false ∧
          canonicalEndpoint (dialAddress (seenFrom 200)) ∉
            uniqueEndpoints [] (dialAddresses peer) :=
    ⟨_, rfl, by decide +kernel, by decide +kernel, by decide +kernel⟩
  obtain ⟨moments, rest, leads, started⟩ := race_for_bob found device dialable
  exact ⟨moments, rest, leads, _, _, _, _, started, missing⟩

end Runtime

end ArcRelay
