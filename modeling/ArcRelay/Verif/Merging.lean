import ArcRelay.Verif.Routes

/-!
# What observations of one device add up to

Observations of a device are merged one by one. The newest of them decides the key,
the metadata, the port and the certificate, and the addresses of all are collected in
sorted lists without repetitions. So what they add up to depends on which observations
there were, not on their order, nor on which of the two maps they went to; and an
observation whose route is known already is not notified again.
-/

namespace ArcRelay

section Sorting

variable {α : Type} [LinearOrder α]

theorem pairwise_sortDedup (values : List α) : (sortDedup values).Pairwise (· < ·) := by
  have sorted := List.pairwise_insertionSort (fun left right : α => left ≤ right) values
  rw [sortDedup, sorted.destutter_eq_dedup]
  have weakly := sorted.sublist (List.dedup_sublist _)
  exact (weakly.and (List.nodup_dedup _)).imp fun both => lt_of_le_of_ne both.1 both.2

theorem sortDedup_eq {values sorted : List α} (strictly : sorted.Pairwise (· < ·))
    (same : ∀ value, value ∈ values ↔ value ∈ sorted) : sortDedup values = sorted :=
  (pairwise_sortDedup values).eq_of_mem_iff strictly fun value => mem_sortDedup.trans (same value)

theorem sortDedup_append_of_subset {known new : List α} (strictly : known.Pairwise (· < ·))
    (subset : new ⊆ known) : sortDedup (known ++ new) = known := by
  refine sortDedup_eq strictly fun value => ?_
  rw [List.mem_append]
  exact ⟨fun member => member.elim id fun added => subset added, Or.inl⟩

end Sorting

/-- The address lists of an advertisement are strictly sorted. -/
structure PeerAdvertisement.Sorted (peer : PeerAdvertisement) : Prop where
  addresses : peer.addresses.Pairwise (· < ·)
  connections : peer.connectionAddresses.Pairwise (· < ·)

theorem details_mergeAdvertisement (target newer : PeerAdvertisement) :
    (mergeAdvertisement target newer).details = (decisive target newer).details := rfl

theorem lastSeenAtMs_mergeAdvertisement (target newer : PeerAdvertisement) :
    (mergeAdvertisement target newer).lastSeenAtMs = (decisive target newer).lastSeenAtMs := rfl

theorem sorted_mergeAdvertisement (target newer : PeerAdvertisement) :
    (mergeAdvertisement target newer).Sorted :=
  ⟨pairwise_sortDedup _, pairwise_sortDedup _⟩

/-! ## The record of a collection -/

/-- What a collection of advertisements of one device adds up to: the newest decides, and the lists
are the sorted unions. -/
structure Combines (collection : List PeerAdvertisement) (record : PeerAdvertisement) : Prop where
  newest : ∃ peer ∈ collection, (∀ other ∈ collection, other.lastSeenAtMs ≤ peer.lastSeenAtMs) ∧
    record.deviceId = peer.deviceId ∧ record.details = peer.details ∧
      record.lastSeenAtMs = peer.lastSeenAtMs
  sorted : record.Sorted
  addresses : ∀ address, address ∈ record.addresses ↔
    ∃ peer ∈ collection, address ∈ peer.addresses
  connections : ∀ address, address ∈ record.connectionAddresses ↔
    ∃ peer ∈ collection, address ∈ peer.connectionAddresses

theorem Combines.device {collection : List PeerAdvertisement} {record : PeerAdvertisement}
    (combines : Combines collection record) {id : DeviceId}
    (device : ∀ peer ∈ collection, peer.deviceId = id) : record.deviceId = id := by
  obtain ⟨peer, member, -, same, -⟩ := combines.newest
  exact same.trans (device peer member)

variable {peer : PeerAdvertisement}

theorem combines_singleton (sorted : peer.Sorted) :
    Combines [peer] peer :=
  ⟨⟨peer, by simp⟩, sorted, by simp, by simp⟩

/-- The record of two collections of one device together is that of both merged. -/
theorem Combines.merge {first second : List PeerAdvertisement} {left right : PeerAdvertisement}
    (combines : Combines first left) (combines' : Combines second right)
    (device : left.deviceId = right.deviceId) :
    Combines (first ++ second) (mergeAdvertisement left right) := by
  obtain ⟨peer, member, newest, same, details, seen⟩ := combines.newest
  obtain ⟨peer', member', newest', same', details', seen'⟩ := combines'.newest
  refine ⟨?_, sorted_mergeAdvertisement left right, fun address => ?_, fun address => ?_⟩
  · by_cases later : left.lastSeenAtMs ≤ right.lastSeenAtMs
    · refine ⟨peer', List.mem_append_right _ member', fun other known => ?_, device.trans same', ?_⟩
      · rcases List.mem_append.mp known with early | late
        · exact ((newest other early).trans seen.ge).trans (later.trans seen'.le)
        · exact newest' other late
      · rw [details_mergeAdvertisement, lastSeenAtMs_mergeAdvertisement, decisive, if_pos later]
        exact ⟨details', seen'⟩
    · refine ⟨peer, List.mem_append_left _ member, fun other known => ?_, same, ?_⟩
      · rcases List.mem_append.mp known with early | late
        · exact newest other early
        · exact ((newest' other late).trans seen'.ge).trans ((not_le.mp later).le.trans seen.le)
      · rw [details_mergeAdvertisement, lastSeenAtMs_mergeAdvertisement, decisive, if_neg later]
        exact ⟨details, seen⟩
  · simp only [mergeAdvertisement, mem_sortDedup, List.mem_append, combines.addresses address,
      combines'.addresses address, or_and_right, exists_or]
  · simp only [mergeAdvertisement, mem_sortDedup, List.mem_append, combines.connections address,
      combines'.connections address, or_and_right, exists_or]

/-- Where the times are distinct, collections of the same observations have the same record. -/
theorem Combines.unique {first second : List PeerAdvertisement} {left right : PeerAdvertisement}
    (combines : Combines first left) (combines' : Combines second right)
    (same : ∀ peer, peer ∈ first ↔ peer ∈ second)
    (distinct : ∀ peer ∈ first, ∀ other ∈ first, peer.lastSeenAtMs = other.lastSeenAtMs →
      peer = other) : left = right := by
  obtain ⟨peer, member, newest, device, details, seen⟩ := combines.newest
  obtain ⟨peer', member', newest', device', details', seen'⟩ := combines'.newest
  obtain rfl : peer = peer' := distinct peer member peer' ((same peer').mpr member')
    (le_antisymm (newest' peer ((same peer).mp member)) (newest peer' ((same peer').mpr member')))
  have addresses : left.addresses = right.addresses :=
    combines.sorted.addresses.eq_of_mem_iff combines'.sorted.addresses fun address => by
      simp only [combines.addresses, combines'.addresses, same]
  have connections : left.connectionAddresses = right.connectionAddresses :=
    combines.sorted.connections.eq_of_mem_iff combines'.sorted.connections fun address => by
      simp only [combines.connections, combines'.connections, same]
  have decided : left.details = right.details := details.trans details'.symm
  cases left
  cases right
  simp only [PeerAdvertisement.details, Prod.mk.injEq] at decided
  simp_all

/-! ## Observations one after the other -/

/-- Observations merged into a map one after the other. -/
def observe (peers : PeerTable) (observations : List PeerAdvertisement) : PeerTable :=
  observations.foldl (fun peers peer => (mergeObservedPeer peers peer).2) peers

/-- The last observation is merged into what the others have left. -/
theorem observe_concat (peers : PeerTable) (observations : List PeerAdvertisement)
    (peer : PeerAdvertisement) :
    observe peers (observations ++ [peer]) =
      (mergeObservedPeer (observe peers observations) peer).2 := by
  simp [observe]

variable {observations : List PeerAdvertisement} {id : DeviceId} {peers : PeerTable}

/-- The observations of a device that was not in the map add up to its record there. -/
theorem find?_observe (absent : peers.find? id = none) (nonempty : observations ≠ [])
    (device : ∀ peer ∈ observations, peer.deviceId = id)
    (sorted : ∀ peer ∈ observations, peer.Sorted) :
    ∃ record, (observe peers observations).find? id = some record ∧
      Combines observations record := by
  induction observations using List.reverseRecOn with
  | nil => exact absurd rfl nonempty
  | append_singleton earlier last ih =>
    have own : last.deviceId = id := device last (by simp)
    have alone := combines_singleton (sorted last (by simp))
    rw [observe_concat]
    by_cases first : earlier = []
    · subst first
      refine ⟨last, ?_, alone⟩
      simp [observe, mergeObservedPeer, own, absent, Table.find?_upsert]
    · obtain ⟨record, found, combines⟩ :=
        ih first (fun peer member => device peer (by simp [member]))
        fun peer member => sorted peer (by simp [member])
      have same : record.deviceId = id :=
        combines.device fun peer member => device peer (by simp [member])
      refine ⟨mergeAdvertisement record last, ?_, combines.merge alone (same.trans own.symm)⟩
      simp [mergeObservedPeer, own, found, Table.find?_upsert, mergeAdvertisement, same]

theorem find?_observe_other {other : DeviceId} (different : other ≠ id)
    (device : ∀ peer ∈ observations, peer.deviceId = id) :
    (observe peers observations).find? other = peers.find? other := by
  induction observations using List.reverseRecOn with
  | nil => rfl
  | append_singleton earlier last ih =>
    have elsewhere : last.deviceId ≠ other := fun same =>
      different (same.symm.trans (device last (by simp)))
    rw [observe_concat, Discovery.find?_observed, if_neg elsewhere, Option.merge_none_right,
      ih fun peer member => device peer (by simp [member])]

/-- The record a collection adds up to in one map, if there is any observation. -/
theorem find?_observe_empty (device : ∀ peer ∈ observations, peer.deviceId = id)
    (sorted : ∀ peer ∈ observations, peer.Sorted) :
    (observations = [] ∧ (observe .empty observations).find? id = none) ∨
      ∃ record, (observe .empty observations).find? id = some record ∧
        Combines observations record := by
  by_cases first : observations = []
  · exact Or.inl ⟨first, by rw [first]; rfl⟩
  · exact Or.inr (find?_observe rfl first device sorted)

/-- Two maps add up to the record of all observations in either. -/
theorem find?_mergedPeers_observe {authenticated mdns : List PeerAdvertisement}
    (nonempty : authenticated ++ mdns ≠ [])
    (device : ∀ peer ∈ authenticated ++ mdns, peer.deviceId = id)
    (sorted : ∀ peer ∈ authenticated ++ mdns, peer.Sorted) :
    ∃ record, (mergedPeers (observe .empty authenticated) (observe .empty mdns)).find? id =
      some record ∧ Combines (authenticated ++ mdns) record := by
  rw [find?_mergedPeers]
  have early : ∀ peer ∈ authenticated, peer ∈ authenticated ++ mdns :=
    fun _ => List.mem_append_left _
  have late : ∀ peer ∈ mdns, peer ∈ authenticated ++ mdns := fun _ => List.mem_append_right _
  have device' : ∀ peer ∈ mdns, peer.deviceId = id := fun peer member =>
    device peer (late peer member)
  have sorted' : ∀ peer ∈ mdns, peer.Sorted := fun peer member => sorted peer (late peer member)
  rcases find?_observe_empty (fun peer member => device peer (early peer member))
    (fun peer member => sorted peer (early peer member)) with
    ⟨rfl, silent⟩ | ⟨record, found, combines⟩
  · rw [silent, Option.merge_none_left]
    exact find?_observe rfl nonempty device' sorted'
  · rw [found]
    rcases find?_observe_empty device' sorted' with ⟨rfl, silent⟩ | ⟨other, found', combines'⟩
    · rw [silent, Option.merge_none_right, List.append_nil]
      exact ⟨record, rfl, combines⟩
    · rw [found']
      refine ⟨_, rfl, combines.merge combines' ?_⟩
      rw [combines.device fun peer member => device peer (early peer member),
        combines'.device device']

/-- Observations of one device with distinct times add up to one record, in whatever order they are
merged into a map and however they are divided between the two maps that `emit` publishes. -/
theorem observation_order_irrelevant {collection : List PeerAdvertisement}
    (nonempty : collection ≠ []) (device : ∀ peer ∈ collection, peer.deviceId = id)
    (sorted : ∀ peer ∈ collection, peer.Sorted)
    (distinct : (collection.map PeerAdvertisement.lastSeenAtMs).Nodup) :
    ∃ record, record.deviceId = id ∧ Combines collection record ∧
      (∀ order : List PeerAdvertisement, order.Perm collection →
        (observe .empty order).rows = [record]) ∧
      ∀ (authenticated mdns : List PeerAdvertisement) (state : Discovery),
        (authenticated ++ mdns).Perm collection →
        state.authenticatedPeers = observe .empty authenticated →
        state.mdnsPeers = observe .empty mdns →
          (Discovery.emit.complete Discovery.answer state).2.snapshot = [record] := by
  have absent : (.empty : PeerTable).find? id = none := rfl
  obtain ⟨record, -, combines⟩ := find?_observe absent nonempty device sorted
  have same : ∀ {order : List PeerAdvertisement} {other : PeerAdvertisement},
      order.Perm collection → Combines order other → other = record :=
    fun perm combines' => (combines.unique combines' (fun _ => perm.mem_iff.symm)
      fun _ member _ member' => List.inj_on_of_nodup_map distinct member member').symm
  have kept : ∀ {order : List PeerAdvertisement}, order.Perm collection → order ≠ [] ∧
      (∀ peer ∈ order, peer.deviceId = id) ∧ ∀ peer ∈ order, peer.Sorted := fun perm =>
    ⟨fun empty => nonempty (List.Perm.nil_eq (empty ▸ perm)).symm,
      fun peer member => device peer (perm.mem_iff.mp member),
      fun peer member => sorted peer (perm.mem_iff.mp member)⟩
  refine ⟨record, combines.device device, combines, fun order perm => ?_,
    fun authenticated mdns state perm own announced => ?_⟩
  · obtain ⟨nonempty, device, sorted⟩ := kept perm
    obtain ⟨other, found, combines'⟩ := find?_observe absent nonempty device sorted
    rw [same perm combines'] at found
    exact Table.rows_eq_singleton found fun other different =>
      find?_observe_other different device
  · obtain ⟨nonempty, device, sorted⟩ := kept perm
    obtain ⟨other, found, combines'⟩ := find?_mergedPeers_observe nonempty device sorted
    rw [same perm combines'] at found
    have rows := Table.rows_eq_singleton found fun other different => by
      rw [find?_mergedPeers,
        find?_observe_other different fun peer member =>
          device peer (List.mem_append_left _ member),
        find?_observe_other different fun peer member =>
          device peer (List.mem_append_right _ member)]
      rfl
    rw [Discovery.complete_emit]
    simp only [Discovery.published, emitted, own, announced, rows]
    rfl

/-- An advertisement of one device, seen at a host and a time. -/
def seenAt (host : BitVec 32) (lastSeenAtMs : Int) : PeerAdvertisement :=
  { Discovery.sampleAdvertisement "peer" "peer" lastSeenAtMs with
    addresses := [.v4 host]
    connectionAddresses := [.v4 host 9] }

theorem sorted_seenAt (host : BitVec 32) (lastSeenAtMs : Int) : (seenAt host lastSeenAtMs).Sorted :=
  ⟨List.pairwise_singleton _ _, List.pairwise_singleton _ _⟩

/-- A device seen at two hosts, the other way round and with one observation in each map. -/
theorem observation_order_irrelevant_two :
    ∃ record, Combines [seenAt 1 5, seenAt 2 7] record ∧
      (observe .empty [seenAt 2 7, seenAt 1 5]).rows = [record] ∧
        emitted (observe .empty [seenAt 2 7]) (observe .empty [seenAt 1 5]) = [record] := by
  have device : ∀ peer ∈ [seenAt 1 5, seenAt 2 7], peer.deviceId = ⟨"peer"⟩ := by
    simp [seenAt, Discovery.sampleAdvertisement]
  obtain ⟨record, -, combines, inOrder, divided⟩ :=
    observation_order_irrelevant (by simp) device (by simp [sorted_seenAt]) (by decide)
  exact ⟨record, combines, inOrder _ (List.Perm.swap _ _ _), divided [seenAt 2 7] [seenAt 1 5]
    ⟨observe .empty [seenAt 1 5], observe .empty [seenAt 2 7], .empty, []⟩ (List.Perm.swap _ _ _)
    rfl rfl⟩

/-! ## Notifications -/

/-- Which of the observations, merged one after the other, are reported as a change. -/
def notified (peers : PeerTable) : List PeerAdvertisement → List Bool
  | [] => []
  | peer :: later =>
    (mergeObservedPeer peers peer).1 :: notified (mergeObservedPeer peers peer).2 later

theorem notified_concat (peers : PeerTable) (observations : List PeerAdvertisement)
    (peer : PeerAdvertisement) :
    notified peers (observations ++ [peer]) =
      notified peers observations ++ [(mergeObservedPeer (observe peers observations) peer).1] := by
  induction observations generalizing peers with
  | nil => rfl
  | cons first later ih => simp only [List.cons_append, notified, ih, observe, List.foldl_cons]

/-- Advertisements of one device that differ in their addresses only. -/
structure SameRecord (id : DeviceId) (details : DevicePublicKey × DeviceMetadata × UInt16 × Digest)
    (peer : PeerAdvertisement) : Prop where
  device : peer.deviceId = id
  details : peer.details = details
  sorted : peer.Sorted

variable {details : DevicePublicKey × DeviceMetadata × UInt16 × Digest}

theorem SameRecord.untimed {other : PeerAdvertisement} (uniform : SameRecord id details peer)
    (same : other.untimed = peer.untimed) : SameRecord id details other := by
  have equal := same
  simp only [PeerAdvertisement.untimed, PeerAdvertisement.mk.injEq] at equal
  obtain ⟨device, -, -, addresses, connections, -⟩ := equal
  exact ⟨device.trans uniform.device, (details_of_untimed same).trans uniform.details,
    addresses ▸ uniform.sorted.addresses, connections ▸ uniform.sorted.connections⟩

/-- A route that was observed before is not reported again. -/
theorem unnotified_of_observed (absent : peers.find? id = none)
    (uniform : ∀ peer ∈ observations, SameRecord id details peer) {again : PeerAdvertisement}
    (observed : peer ∈ observations) (same : again.untimed = peer.untimed) :
    (mergeObservedPeer (observe peers observations) again).1 = false := by
  obtain ⟨record, found, combines⟩ := find?_observe absent (List.ne_nil_of_mem observed)
    (fun peer member => (uniform peer member).device)
    fun peer member => (uniform peer member).sorted
  have own := (uniform peer observed).untimed same
  have device : record.deviceId = id := combines.device fun peer member =>
    (uniform peer member).device
  have decided : record.details = again.details := by
    obtain ⟨newest, member, -, -, equal, -⟩ := combines.newest
    exact (equal.trans (uniform newest member).details).trans own.details.symm
  refine Discovery.mergeObservedPeer_fst.mpr ⟨record, by rw [own.device, found], ?_⟩
  simp only [PeerAdvertisement.untimed, PeerAdvertisement.mk.injEq] at same
  obtain ⟨-, -, -, addresses, connections, -⟩ := same
  have merged : (mergeAdvertisement record again).details = record.details := by
    rw [details_mergeAdvertisement, decisive]
    split
    · exact decided.symm
    · rfl
  have kept : (mergeAdvertisement record again).addresses = record.addresses :=
    sortDedup_append_of_subset combines.sorted.addresses fun address member =>
      (combines.addresses address).mpr ⟨peer, observed, addresses ▸ member⟩
  have kept' : (mergeAdvertisement record again).connectionAddresses =
      record.connectionAddresses :=
    sortDedup_append_of_subset combines.sorted.connections fun address member =>
      (combines.connections address).mpr ⟨peer, observed, connections ▸ member⟩
  simp only [PeerAdvertisement.details, Prod.mk.injEq] at merged
  refine sameDiscoveryRoute_iff.mpr ?_
  simp only [PeerAdvertisement.untimed, merged, kept, kept', deviceId_mergeAdvertisement]

/-- No more observations are reported than there are different routes among them. -/
theorem count_notified_le (absent : peers.find? id = none)
    (uniform : ∀ peer ∈ observations, SameRecord id details peer) :
    (notified peers observations).count true ≤
      (observations.map PeerAdvertisement.untimed).toFinset.card := by
  induction observations using List.reverseRecOn with
  | nil => simp [notified]
  | append_singleton earlier last ih =>
    have before := ih fun peer member => uniform peer (by simp [member])
    rw [notified_concat, List.count_append, List.map_append, List.toFinset_append]
    have more : (earlier.map PeerAdvertisement.untimed).toFinset ⊆
        (earlier.map PeerAdvertisement.untimed).toFinset ∪
          ([last].map PeerAdvertisement.untimed).toFinset := Finset.subset_union_left
    cases reported : (mergeObservedPeer (observe peers earlier) last).1 with
    | false => simpa using before.trans (Finset.card_le_card more)
    | true =>
      -- what is reported was not observed before
      have new : last.untimed ∉ (earlier.map PeerAdvertisement.untimed).toFinset := by
        rw [List.mem_toFinset, List.mem_map]
        rintro ⟨peer, member, same⟩
        have silent := unnotified_of_observed absent
          (fun peer member => uniform peer (by simp [member])) member same.symm
        simp [reported] at silent
      have grown : (earlier.map PeerAdvertisement.untimed).toFinset.card + 1 =
          ((earlier.map PeerAdvertisement.untimed).toFinset ∪
            ([last].map PeerAdvertisement.untimed).toFinset).card := by
        rw [Finset.union_comm]
        simpa [Finset.singleton_union] using (Finset.card_insert_of_notMem new).symm
      rw [← grown]
      simpa using before

/-- Observations drawn from a set of advertisements of one device that share everything but their
addresses, with any times: no more of them are reported as changes than there are advertisements,
and an advertisement that is observed twice in a row is not reported the second time. -/
theorem reobservations_not_notified {known : Finset PeerAdvertisement}
    (device : ∀ peer ∈ known, peer.deviceId = id)
    (shared : ∀ peer ∈ known, ∀ other ∈ known, peer.details = other.details)
    (sorted : ∀ peer ∈ known, peer.Sorted) (absent : peers.find? id = none)
    (drawn : ∀ peer ∈ observations, ∃ advertised ∈ known, peer.untimed = advertised.untimed) :
    (notified peers observations).count true ≤ known.card ∧
      ∀ before peer again later, observations = before ++ peer :: again :: later →
        again.untimed = peer.untimed →
          (mergeObservedPeer (observe peers (before ++ [peer])) again).1 = false := by
  have uniform : ∃ details, ∀ peer ∈ observations, SameRecord id details peer := by
    rcases known.eq_empty_or_nonempty with rfl | ⟨first, member⟩
    · refine ⟨⟨⟨[]⟩, ⟨"", "", ""⟩, 0, Vector.replicate 32 0⟩, fun peer observed => ?_⟩
      obtain ⟨advertised, listed, -⟩ := drawn peer observed
      exact absurd listed (Finset.notMem_empty advertised)
    · refine ⟨first.details, fun peer observed => ?_⟩
      obtain ⟨advertised, listed, same⟩ := drawn peer observed
      have listedSame : SameRecord id first.details advertised :=
        ⟨device advertised listed, shared advertised listed first member, sorted advertised listed⟩
      exact listedSame.untimed same
  obtain ⟨details, uniform⟩ := uniform
  refine ⟨(count_notified_le absent uniform).trans ?_, ?_⟩
  · have routes : (observations.map PeerAdvertisement.untimed).toFinset ⊆
        known.image PeerAdvertisement.untimed := by
      intro route member
      obtain ⟨peer, observed, rfl⟩ := List.mem_map.mp (List.mem_toFinset.mp member)
      obtain ⟨advertised, listed, same⟩ := drawn peer observed
      exact Finset.mem_image.mpr ⟨advertised, listed, same.symm⟩
    exact (Finset.card_le_card routes).trans Finset.card_image_le
  · rintro before peer again later rfl same
    refine unnotified_of_observed absent (fun other member => uniform other ?_) (by simp) same
    rw [show before ++ peer :: again :: later = (before ++ [peer]) ++ again :: later by simp]
    exact List.mem_append_left _ member

/-- Two hosts in turn: two observations of four are reported. -/
theorem reobservations_not_notified_two :
    (notified .empty [seenAt 1 5, seenAt 2 7, seenAt 1 3, seenAt 2 9]).count true ≤
      ({seenAt 1 0, seenAt 2 0} : Finset PeerAdvertisement).card := by
  have device : ∀ peer ∈ ({seenAt 1 0, seenAt 2 0} : Finset PeerAdvertisement),
      peer.deviceId = ⟨"peer"⟩ := by simp [seenAt, Discovery.sampleAdvertisement]
  refine (reobservations_not_notified device ?_ ?_ rfl ?_).1
  · simp [seenAt, Discovery.sampleAdvertisement, PeerAdvertisement.details]
  · simp [sorted_seenAt]
  · simp [seenAt, Discovery.sampleAdvertisement, PeerAdvertisement.untimed]

end ArcRelay
