import ArcRelay.EndpointHistory
import ArcRelay.Lib.Run

/-!
# The endpoint history against its trace

What the repository in memory answers is determined by the calls it has seen: the
sixteen most recently authenticated addresses of a peer since it was forgotten,
without those that failed too recently. The stored list is related to the trace
entry by entry, and every call keeps the relation.
-/

namespace ArcRelay

/-! ## What the trace says -/

/-- A session that was authenticated, as a trace shows it. -/
structure Authentication where
  time : Int
  address : SocketAddr
  certificateSha256 : Digest
  source : EndpointSource
deriving DecidableEq, Repr

/-- The authentication of a peer that a call records. -/
def Timed.authentication? (peerId : DeviceId) (timed : Timed) : Option Authentication :=
  match timed.call with
  | .recordAuthenticated peer address certificateSha256 source =>
    if peer = peerId then some ⟨timed.time, address, certificateSha256, source⟩ else none
  | _ => none

/-- The time of a failure at an address of a peer that a call records. -/
def Timed.failure? (peerId : DeviceId) (address : SocketAddr) (timed : Timed) : Option Int :=
  match timed.call with
  | .recordFailure peer failed => if peer = peerId ∧ failed = address then some timed.time else none
  | _ => none

/-- The calls since a peer was last forgotten, most recent first. -/
def sinceForgotten (peerId : DeviceId) (trace : List Timed) : List Timed :=
  trace.reverse.takeWhile fun timed => timed.call ≠ .forget peerId

/-- The failures at an address of a peer after a time, most recent first. -/
def failuresAfter (peerId : DeviceId) (recent : List Timed) (address : SocketAddr) (time : Int) :
    List Int :=
  (recent.filterMap (Timed.failure? peerId address)).filter fun failure => time < failure

/-- The last authentication at each of the sixteen most recently authenticated addresses since the
peer was last forgotten, most recent first. -/
def remembered (peerId : DeviceId) (trace : List Timed) : List Authentication :=
  (((sinceForgotten peerId trace).filterMap (Timed.authentication? peerId)).firstByKey
    Authentication.address).take 16

/-- There was no failure, or the last of `k` failures was `min(2^k, 256)` seconds ago. -/
def waited (now : Int) : List Int → Bool
  | [] => true
  | last :: earlier => last + min (2 ^ (earlier.length + 1)) 256 * 1000 ≤ now

/-- The endpoints of a peer that may be dialled, by the trace. -/
def dialable (peerId : DeviceId) (trace : List Timed) (now : Int) : List Authentication :=
  (remembered peerId trace).filter fun authentication =>
    waited now (failuresAfter peerId (sinceForgotten peerId trace) authentication.address
      authentication.time)

/-! ## One call more -/

section Trace

variable {peerId : DeviceId} {trace : List Timed} {timed : Timed}

theorem sinceForgotten_forget (call : timed.call = .forget peerId) :
    sinceForgotten peerId (trace ++ [timed]) = [] := by
  simp [sinceForgotten, call]

theorem sinceForgotten_concat (call : timed.call ≠ .forget peerId) :
    sinceForgotten peerId (trace ++ [timed]) = timed :: sinceForgotten peerId trace := by
  simp [sinceForgotten, call]

theorem mem_of_mem_sinceForgotten (member : timed ∈ sinceForgotten peerId trace) :
    timed ∈ trace := by
  have found := (List.takeWhile_sublist _).subset member
  simpa using found

theorem pairwise_sinceForgotten
    (increasing : trace.Pairwise fun left right => left.time < right.time) :
    (sinceForgotten peerId trace).Pairwise fun left right => right.time < left.time :=
  (List.pairwise_reverse.mpr increasing).sublist (List.takeWhile_sublist _)

theorem time_of_authentication? {authentication : Authentication}
    (found : timed.authentication? peerId = some authentication) :
    authentication.time = timed.time := by
  unfold Timed.authentication? at found
  split at found
  · split at found
    · cases found
      rfl
    · cases found
  · cases found

theorem pairwise_remembered (increasing : trace.Pairwise fun left right => left.time < right.time) :
    (remembered peerId trace).Pairwise fun left right => right.time < left.time := by
  refine List.Pairwise.sublist ((List.take_sublist _ _).trans (List.firstByKey_sublist _ _)) ?_
  refine List.Pairwise.filterMap _ (fun left right less first one second other => ?_)
    (pairwise_sinceForgotten increasing)
  rw [time_of_authentication? one, time_of_authentication? other]
  exact less

theorem nodup_remembered : ((remembered peerId trace).map Authentication.address).Nodup :=
  (List.nodup_firstByKey _ _).sublist ((List.take_sublist _ _).map _)

/-- A remembered authentication was recorded by a call of the trace. -/
theorem exists_call_of_remembered {authentication : Authentication}
    (member : authentication ∈ remembered peerId trace) :
    ∃ timed ∈ trace, timed.time = authentication.time := by
  have found := ((List.take_sublist _ _).trans (List.firstByKey_sublist _ _)).subset member
  obtain ⟨timed, recent, recorded⟩ := List.mem_filterMap.mp found
  exact ⟨timed, mem_of_mem_sinceForgotten recent, (time_of_authentication? recorded).symm⟩

/-- A call that records no authentication of the peer leaves what is remembered. -/
theorem remembered_concat (call : timed.call ≠ .forget peerId)
    (none : timed.authentication? peerId = none) :
    remembered peerId (trace ++ [timed]) = remembered peerId trace := by
  simp [remembered, sinceForgotten_concat call, none]

/-- A recorded authentication comes first, and nothing else is remembered of its address. -/
theorem remembered_authenticated {authentication : Authentication}
    (call : timed.call ≠ .forget peerId)
    (found : timed.authentication? peerId = some authentication) :
    remembered peerId (trace ++ [timed]) = authentication ::
      ((remembered peerId trace).filter fun other =>
        other.address ≠ authentication.address).take 15 := by
  have recent : (sinceForgotten peerId (trace ++ [timed])).filterMap
      (Timed.authentication? peerId) = authentication ::
        (sinceForgotten peerId trace).filterMap (Timed.authentication? peerId) := by
    rw [sinceForgotten_concat call, List.filterMap_cons_some found]
  rw [remembered, recent, List.firstByKey, List.take_succ_cons, remembered,
    List.take_filter_take (List.nodup_firstByKey _ _)]

/-- A call that records no failure at the address leaves its failures. -/
theorem failuresAfter_cons (recent : List Timed) {address : SocketAddr} (time : Int)
    (none : timed.failure? peerId address = none) :
    failuresAfter peerId (timed :: recent) address time =
      failuresAfter peerId recent address time := by
  simp [failuresAfter, none]

theorem failuresAfter_failed (recent : List Timed) {address : SocketAddr} {time : Int}
    (found : timed.failure? peerId address = some timed.time) (later : time < timed.time) :
    failuresAfter peerId (timed :: recent) address time =
      timed.time :: failuresAfter peerId recent address time := by
  simp [failuresAfter, found, later]

end Trace

/-! ## What is stored -/

/-- When an endpoint may be dialled again after its failures, most recent first. -/
def retryTime : List Int → Int
  | [] => 0
  | last :: earlier => saturate (last + 2 ^ min (earlier.length + 1) 8 * 1000)

/-- An endpoint is stored as its last authentication and the failures since then say. -/
structure Recalls (peerId : DeviceId) (recent : List Timed) (authentication : Authentication)
    (endpoint : RememberedEndpoint) : Prop where
  peer : endpoint.peerId = peerId
  address : endpoint.address = authentication.address
  certificate : endpoint.certificateSha256 = authentication.certificateSha256
  source : endpoint.source = authentication.source
  success : endpoint.lastSuccessAtMs = authentication.time
  /-- The failures are counted, as far as the counter goes. -/
  failures : endpoint.consecutiveFailures.toNat =
    min (failuresAfter peerId recent authentication.address authentication.time).length (2 ^ 32 - 1)
  retry : endpoint.retryAfterMs =
    retryTime (failuresAfter peerId recent authentication.address authentication.time)

/-- What the repository stores of a peer is what the trace says. -/
abbrev MirrorsPeer (peerId : DeviceId) (trace : List Timed) (endpoints : List RememberedEndpoint) :
    Prop :=
  List.Forall₂ (Recalls peerId (sinceForgotten peerId trace)) (remembered peerId trace) endpoints

/-- What the repository stores of every peer is what the trace says. -/
def Mirrors (trace : List Timed) (memory : EndpointMemory) : Prop :=
  ∀ peerId, MirrorsPeer peerId trace (memory peerId)

section Stored

variable {peerId : DeviceId} {recent : List Timed} {timed : Timed}
  {authentication : Authentication} {endpoint : RememberedEndpoint}

/-- A call that records no failure at the address leaves the endpoint. -/
theorem Recalls.cons (recalls : Recalls peerId recent authentication endpoint)
    (unrelated : timed.failure? peerId authentication.address = none) :
    Recalls peerId (timed :: recent) authentication endpoint :=
  { recalls with
    failures := by rw [failuresAfter_cons recent _ unrelated]; exact recalls.failures
    retry := by rw [failuresAfter_cons recent _ unrelated]; exact recalls.retry }

theorem toNat_saturatingSucc (value : UInt32) :
    (saturatingSucc value).toNat = min (value.toNat + 1) (2 ^ 32 - 1) := by
  unfold saturatingSucc
  split
  · rename_i top
    rw [top]
    rfl
  · rename_i below
    have bound := value.toNat_lt
    have other : value.toNat ≠ 2 ^ 32 - 1 := fun same => below (UInt32.toNat_inj.mp same)
    rw [UInt32.toNat_add]
    have one : (1 : UInt32).toNat = 1 := rfl
    omega

/-- A recorded failure makes the endpoint wait. -/
theorem Recalls.failed (recalls : Recalls peerId recent authentication endpoint)
    (found : timed.failure? peerId authentication.address = some timed.time)
    (later : authentication.time < timed.time) :
    Recalls peerId (timed :: recent) authentication
      (EndpointMemory.backOff endpoint timed.time) := by
  have count : (saturatingSucc endpoint.consecutiveFailures).toNat =
      min ((failuresAfter peerId recent authentication.address authentication.time).length + 1)
        (2 ^ 32 - 1) := by
    rw [toNat_saturatingSucc, recalls.failures]
    omega
  exact { recalls with
    failures := by
      rw [failuresAfter_failed recent found later, List.length_cons]
      exact count
    retry := by
      rw [failuresAfter_failed recent found later]
      simp only [EndpointMemory.backOff, retryTime, saturatingAdd, count]
      congr 4
      omega }

/-- A recorded authentication without failures since. -/
theorem recalls_of_fresh {time : Int} (after : ∀ other ∈ recent, other.time ≤ time)
    (peer : endpoint.peerId = peerId) (address : endpoint.address = authentication.address)
    (certificate : endpoint.certificateSha256 = authentication.certificateSha256)
    (source : endpoint.source = authentication.source)
    (success : endpoint.lastSuccessAtMs = authentication.time) (now : authentication.time = time)
    (failures : endpoint.consecutiveFailures = 0) (retry : endpoint.retryAfterMs = 0) :
    Recalls peerId recent authentication endpoint := by
  have unfailed : failuresAfter peerId recent authentication.address authentication.time = [] := by
    refine List.filter_eq_nil_iff.mpr fun failure member => ?_
    obtain ⟨other, here, found⟩ := List.mem_filterMap.mp member
    have same : other.time = failure := by
      unfold Timed.failure? at found
      split at found
      · split at found
        · exact Option.some.inj found
        · cases found
      · cases found
    have bound := after other here
    simp only [decide_eq_true_eq]
    omega
  exact ⟨peer, address, certificate, source, success, by rw [unfailed, failures]; rfl,
    by rw [unfailed, retry]; rfl⟩

end Stored

namespace EndpointMemory

instance : Std.Total storeOrder where
  total left right := le_total right.lastSuccessAtMs left.lastSuccessAtMs

instance : IsTrans RememberedEndpoint storeOrder where
  trans _ _ _ first second := Int.le_trans second first

/-- An endpoint that was just authenticated. -/
structure Renewed (endpoint : RememberedEndpoint) (peerId : DeviceId) (address : SocketAddr)
    (certificateSha256 : Digest) (source : EndpointSource) (now : Int) : Prop where
  peer : endpoint.peerId = peerId
  address : endpoint.address = address
  certificate : endpoint.certificateSha256 = certificateSha256
  source : endpoint.source = source
  success : endpoint.lastSuccessAtMs = now
  failures : endpoint.consecutiveFailures = 0
  retry : endpoint.retryAfterMs = 0

section Noted

variable {endpoints : List RememberedEndpoint} {peerId : DeviceId} (address : SocketAddr)
  (certificateSha256 : Digest) (source : EndpointSource) (now : Int)
  (own : ∀ endpoint ∈ endpoints, endpoint.peerId = peerId)
  (distinct : (endpoints.map RememberedEndpoint.address).Nodup)

/-- The endpoint that is left by an authentication. -/
def notedEndpoint (endpoints : List RememberedEndpoint) (peerId : DeviceId) :
    RememberedEndpoint :=
  match endpoints.find? fun endpoint => endpoint.address = address with
  | some endpoint => renew endpoint address certificateSha256 source now
  | none => discover peerId address certificateSha256 source now

include own in
theorem renewed_notedEndpoint : Renewed
    (notedEndpoint address certificateSha256 source now endpoints peerId) peerId address
      certificateSha256 source now := by
  unfold notedEndpoint
  split
  · rename_i endpoint found
    have here : endpoint.address = address := by simpa using List.find?_some found
    exact ⟨own endpoint (List.mem_of_find?_eq_some found), here, rfl, rfl, rfl, rfl, rfl⟩
  · exact ⟨rfl, rfl, rfl, rfl, rfl, rfl, rfl⟩

include distinct in
/-- The authenticated endpoint is there once, with the others. -/
theorem perm_noted : (noted endpoints peerId address certificateSha256 source now).Perm
    (notedEndpoint address certificateSha256 source now endpoints peerId ::
      endpoints.filter fun other => other.address ≠ address) := by
  unfold noted notedEndpoint
  cases found : endpoints.find? fun endpoint => decide (endpoint.address = address) with
  | some endpoint =>
    have member := List.mem_of_find?_eq_some found
    obtain rfl : endpoint.address = address := by simpa using List.find?_some found
    rw [if_pos (List.any_eq_true.mpr ⟨endpoint, member, by simp⟩),
      List.modifyFirst_eq_map distinct]
    exact List.perm_map_change distinct _ member
  | none =>
    have unknown : ∀ other ∈ endpoints, other.address ≠ address := by
      simpa using List.find?_eq_none.mp found
    have others : (endpoints.filter fun other => other.address ≠ address) = endpoints :=
      List.filter_eq_self.mpr fun other member => by simpa using unknown other member
    rw [if_neg (by simpa using unknown), others]
    exact List.perm_append_comm

include own distinct in
/-- The authenticated endpoint is put in front of the others. -/
theorem sorted_noted
    (decreasing : endpoints.Pairwise fun left right => right.lastSuccessAtMs < left.lastSuccessAtMs)
    (earlier : ∀ endpoint ∈ endpoints, endpoint.lastSuccessAtMs < now) :
    ((noted endpoints peerId address certificateSha256 source now).insertionSort
        storeOrder).take 16 =
      notedEndpoint address certificateSha256 source now endpoints peerId ::
        (endpoints.filter fun other => other.address ≠ address).take 15 := by
  have renewed := renewed_notedEndpoint address certificateSha256 source now own
  have ordered : (notedEndpoint address certificateSha256 source now endpoints peerId ::
      endpoints.filter fun other => other.address ≠ address).Pairwise
        fun left right => right.lastSuccessAtMs < left.lastSuccessAtMs := by
    refine List.pairwise_cons.mpr ⟨fun other member => ?_, decreasing.sublist List.filter_sublist⟩
    rw [renewed.success]
    exact earlier other (List.mem_of_mem_filter member)
  have sorted : (noted endpoints peerId address certificateSha256 source now).insertionSort
      storeOrder = _ :=
    List.insertionSort_eq_of_perm (perm_noted address certificateSha256 source now distinct) ordered
      (fun _ _ le => le) fun _ _ less => less.le
  rw [sorted]
  rfl

end Noted

/-! ## Whole traces -/

section Steps

variable {trace : List Timed} {timed : Timed} {memory : EndpointMemory} {peerId : DeviceId}

theorem forall₂_unrelated (call : timed.call ≠ .forget peerId)
    (unauthenticated : timed.authentication? peerId = none)
    (unfailed : ∀ address, timed.failure? peerId address = none)
    (stored : MirrorsPeer peerId trace (memory peerId)) :
    MirrorsPeer peerId (trace ++ [timed]) (memory peerId) := by
  rw [MirrorsPeer, remembered_concat call unauthenticated, sinceForgotten_concat call]
  exact stored.imp fun authentication _ recalls => recalls.cons (unfailed authentication.address)

/-- The stored endpoints of a peer have the order, the peer and the addresses of the trace. -/
theorem stored_facts (increasing : trace.Pairwise fun left right => left.time < right.time)
    (stored : MirrorsPeer peerId trace (memory peerId)) :
    (∀ endpoint ∈ memory peerId, endpoint.peerId = peerId) ∧
      ((memory peerId).map RememberedEndpoint.address).Nodup ∧
      ((memory peerId).Pairwise fun left right =>
        right.lastSuccessAtMs < left.lastSuccessAtMs) ∧
      ∀ endpoint ∈ memory peerId, ∃ other ∈ trace, other.time = endpoint.lastSuccessAtMs := by
  have times : (remembered peerId trace).map Authentication.time =
      (memory peerId).map RememberedEndpoint.lastSuccessAtMs :=
    stored.map_eq fun _ _ recalls => recalls.success.symm
  have addresses : (remembered peerId trace).map Authentication.address =
      (memory peerId).map RememberedEndpoint.address :=
    stored.map_eq fun _ _ recalls => recalls.address.symm
  refine ⟨fun endpoint member => ?_, addresses ▸ nodup_remembered, ?_, fun endpoint member => ?_⟩
  · obtain ⟨_, -, recalls⟩ := stored.exists_left member
    exact recalls.peer
  · have ordered : ((remembered peerId trace).map Authentication.time).Pairwise
        fun left right => right < left := List.pairwise_map.mpr (pairwise_remembered increasing)
    rw [times] at ordered
    exact List.pairwise_map.mp ordered
  · obtain ⟨authentication, known, recalls⟩ := stored.exists_left member
    rw [recalls.success]
    exact exists_call_of_remembered known

/-- A recorded authentication. -/
theorem forall₂_authenticated
    (increasing : (trace ++ [timed]).Pairwise fun left right => left.time < right.time)
    {address : SocketAddr} {certificateSha256 : Digest} {source : EndpointSource}
    (call : timed.call = .recordAuthenticated peerId address certificateSha256 source)
    (stored : MirrorsPeer peerId trace (memory peerId)) :
    MirrorsPeer peerId (trace ++ [timed])
      (((noted (memory peerId) peerId address certificateSha256 source timed.time).insertionSort
        storeOrder).take 16) := by
  obtain ⟨before, -, earlier⟩ := List.pairwise_append.mp increasing
  have past : ∀ other ∈ trace, other.time < timed.time := fun other member =>
    earlier other member timed List.mem_cons_self
  obtain ⟨own, distinct, decreasing, recorded⟩ := stored_facts before stored
  have renewed := renewed_notedEndpoint address certificateSha256 source timed.time own
  have sorted := sorted_noted address certificateSha256 source timed.time own distinct decreasing
    fun endpoint member => by
      obtain ⟨other, inside, same⟩ := recorded endpoint member
      exact same ▸ past other inside
  have other : timed.call ≠ .forget peerId := by simp [call]
  have authenticated : timed.authentication? peerId =
      some ⟨timed.time, address, certificateSha256, source⟩ := by
    simp [Timed.authentication?, call]
  rw [sorted, MirrorsPeer, remembered_authenticated other authenticated,
    sinceForgotten_concat other]
  refine .cons ?_ (List.forall₂_take 15 (List.Forall₂.filter ?_ fun one other recalls => by
    rw [recalls.address]))
  · refine recalls_of_fresh (fun call recent => ?_) renewed.peer renewed.address
      renewed.certificate renewed.source renewed.success rfl renewed.failures renewed.retry
    rcases List.mem_cons.mp recent with rfl | inside
    · exact le_refl _
    · exact (past call (mem_of_mem_sinceForgotten inside)).le
  · exact stored.imp fun _ _ recalls => recalls.cons (by simp [Timed.failure?, call])

/-- A recorded failure. -/
theorem forall₂_failed
    (increasing : (trace ++ [timed]).Pairwise fun left right => left.time < right.time)
    {address : SocketAddr} (call : timed.call = .recordFailure peerId address)
    (stored : MirrorsPeer peerId trace (memory peerId)) :
    MirrorsPeer peerId (trace ++ [timed])
      ((memory peerId).modifyFirst (fun endpoint => endpoint.address = address)
        fun endpoint => backOff endpoint timed.time) := by
  obtain ⟨before, -, earlier⟩ := List.pairwise_append.mp increasing
  obtain ⟨-, distinct, -, -⟩ := stored_facts before stored
  have other : timed.call ≠ .forget peerId := by simp [call]
  have unauthenticated : timed.authentication? peerId = none := by
    simp [Timed.authentication?, call]
  rw [List.modifyFirst_eq_map distinct, MirrorsPeer, remembered_concat other unauthenticated,
    sinceForgotten_concat other, List.forall₂_map_right_iff]
  have past : ∀ authentication ∈ remembered peerId trace, authentication.time < timed.time := by
    intro authentication member
    obtain ⟨call, inside, same⟩ := exists_call_of_remembered member
    exact same ▸ earlier call inside timed List.mem_cons_self
  have pairs := (List.forall₂_and_left _ _).mpr ⟨past, stored⟩
  refine pairs.imp fun authentication endpoint ⟨later, recalls⟩ => ?_
  by_cases here : endpoint.address = address
  · rw [if_pos here]
    exact recalls.failed (by simp [Timed.failure?, call, ← recalls.address, here]) later
  · rw [if_neg here]
    exact recalls.cons (by simp [Timed.failure?, call, ← recalls.address, Ne.symm here])

/-- One call keeps the stored endpoints in line with the trace. -/
theorem mirrors_perform
    (increasing : (trace ++ [timed]).Pairwise fun left right => left.time < right.time)
    (mirrors : Mirrors trace memory) : Mirrors (trace ++ [timed]) (memory.perform timed) := by
  intro peerId
  cases call : timed.call with
  | recordAuthenticated peer address certificateSha256 source =>
    have performed : memory.perform timed =
        memory.recordAuthenticated peer address certificateSha256 source timed.time := by
      simp only [perform, call]
    by_cases own : peer = peerId
    · subst own
      rw [performed, recordAuthenticated, Function.update_self]
      exact forall₂_authenticated increasing call (mirrors peer)
    · rw [performed, recordAuthenticated, Function.update_of_ne (Ne.symm own)]
      exact forall₂_unrelated (by simp [call]) (by simp [Timed.authentication?, call, own])
        (by simp [Timed.failure?, call]) (mirrors peerId)
  | recordFailure peer address =>
    have performed : memory.perform timed = memory.recordFailure peer address timed.time := by
      simp only [perform, call]
    by_cases own : peer = peerId
    · subst own
      rw [performed, recordFailure, Function.update_self]
      exact forall₂_failed increasing call (mirrors peer)
    · rw [performed, recordFailure, Function.update_of_ne (Ne.symm own)]
      exact forall₂_unrelated (by simp [call]) (by simp [Timed.authentication?, call])
        (by simp [Timed.failure?, call, own]) (mirrors peerId)
  | forget peer =>
    have performed : memory.perform timed = memory.forget peer := by simp only [perform, call]
    by_cases own : peer = peerId
    · subst own
      rw [performed, forget, Function.update_self, MirrorsPeer, remembered,
        sinceForgotten_forget call]
      exact .nil
    · rw [performed, forget, Function.update_of_ne (Ne.symm own)]
      exact forall₂_unrelated (by simp [call, own]) (by simp [Timed.authentication?, call])
        (by simp [Timed.failure?, call]) (mirrors peerId)

theorem mirrors_run {trace : List Timed}
    (increasing : trace.Pairwise fun left right => left.time < right.time) :
    Mirrors trace (Run.exec perform empty trace) := by
  induction trace using List.reverseRecOn with
  | nil => exact fun _ => .nil
  | append_singleton trace timed ih =>
    rw [Run.exec_concat]
    exact mirrors_perform increasing (ih (List.pairwise_append.mp increasing).1)

end Steps

instance : Std.Total queryOrder where
  total left right := by
    unfold queryOrder
    omega

instance : IsTrans RememberedEndpoint queryOrder where
  trans first second third := by
    unfold queryOrder
    omega

theorem min_two_pow (count : Nat) : min ((2 : Int) ^ count) 256 = 2 ^ min count 8 := by
  rcases Nat.le_total count 8 with few | many
  · rw [Nat.min_eq_left few]
    have bound : (2 : Int) ^ count ≤ 2 ^ 8 := pow_le_pow_right₀ (by decide) few
    omega
  · rw [Nat.min_eq_right many]
    have bound : (2 : Int) ^ 8 ≤ 2 ^ count := pow_le_pow_right₀ (by decide) many
    omega

/-- Before the end of time, an endpoint may be dialled when it has waited. -/
theorem retryTime_le_iff {now : Int} (epoch : 0 ≤ now) (early : now < i64Max)
    (failures : List Int) : retryTime failures ≤ now ↔ waited now failures = true := by
  cases failures with
  | nil => simpa [retryTime, waited] using epoch
  | cons last earlier =>
    simp only [retryTime, waited, saturate, min_two_pow, decide_eq_true_eq]
    have bottom : i64Min ≤ now := le_trans (by decide) epoch
    omega

/-- The stored order is the order of the answer, and no more than sixteen are stored. -/
theorem endpoints_eq_filter {memory : EndpointMemory} {peerId : DeviceId} {now : Int}
    (decreasing : (memory peerId).Pairwise fun left right =>
      right.lastSuccessAtMs < left.lastSuccessAtMs) (few : (memory peerId).length ≤ 16) :
    memory.endpoints peerId now =
      (memory peerId).filter fun endpoint => endpoint.retryAfterMs ≤ now := by
  have sorted : ((memory peerId).filter fun endpoint => endpoint.retryAfterMs ≤ now).insertionSort
      queryOrder = (memory peerId).filter fun endpoint => endpoint.retryAfterMs ≤ now := by
    refine List.insertionSort_eq_of_perm (.refl _) (decreasing.sublist List.filter_sublist)
      (fun left right order => ?_) fun left right less => Or.inl less
    rcases order with less | ⟨same, -⟩
    · exact less.le
    · exact same.le
  rw [endpoints, sorted, List.take_of_length_le ((List.length_filter_le _ _).trans few)]

/-- What an endpoint says about its last authentication. -/
def lastAuthentication (endpoint : RememberedEndpoint) : Authentication :=
  ⟨endpoint.lastSuccessAtMs, endpoint.address, endpoint.certificateSha256, endpoint.source⟩

/-- After every trace with an increasing clock, and at every later time before the end of time, the
endpoints of a peer are the ones the trace says. -/
theorem endpoints_meet_trace (peerId : DeviceId) {trace : List Timed} {now : Int}
    (increasing : trace.Pairwise fun left right => left.time < right.time)
    (epoch : ∀ timed ∈ trace, 0 ≤ timed.time) (later : ∀ timed ∈ trace, timed.time < now)
    (early : now < i64Max) :
    ((Run.exec perform empty trace).endpoints peerId now).map lastAuthentication =
      dialable peerId trace now := by
  have stored := mirrors_run increasing peerId
  obtain ⟨-, -, decreasing, -⟩ := stored_facts increasing stored
  generalize Run.exec perform empty trace = memory at stored decreasing ⊢
  have start : trace ≠ [] → 0 ≤ now := by
    intro nonempty
    obtain ⟨timed, member⟩ := List.exists_mem_of_ne_nil trace nonempty
    exact le_trans (epoch timed member) (later timed member).le
  have kept : List.Forall₂ (Recalls peerId (sinceForgotten peerId trace))
      (dialable peerId trace now)
      ((memory peerId).filter fun endpoint => endpoint.retryAfterMs ≤ now) := by
    by_cases nonempty : trace = []
    · subst nonempty
      rw [List.forall₂_nil_left_iff.mp stored]
      exact .nil
    · refine stored.filter fun authentication endpoint recalls => ?_
      rw [recalls.retry, Bool.eq_iff_iff, decide_eq_true_eq]
      exact (retryTime_le_iff (start nonempty) early _).symm
  have few : (memory peerId).length ≤ 16 := stored.length_eq ▸ List.length_take_le _ _
  have authentications : (dialable peerId trace now).map id =
      ((memory peerId).filter fun endpoint => endpoint.retryAfterMs ≤ now).map lastAuthentication :=
    kept.map_eq fun authentication endpoint recalls => by
      simp [lastAuthentication, recalls.success, recalls.address, recalls.certificate,
        recalls.source]
  rw [endpoints_eq_filter decreasing few, ← authentications, List.map_id]

/-- A session is authenticated at an address, dialling there fails, and another address is
authenticated. -/
def sampleTrace (start : Int) : List Timed :=
  [⟨start, .recordAuthenticated ⟨"peer"⟩ (.v4 1 1) (Vector.replicate 32 0) .mdns⟩,
    ⟨start + 1, .recordFailure ⟨"peer"⟩ (.v4 1 1)⟩,
    ⟨start + 2, .recordAuthenticated ⟨"peer"⟩ (.v4 2 2) (Vector.replicate 32 0) .scan⟩]

/-- After two seconds both addresses may be dialled, the one authenticated last first. -/
theorem endpoints_meet_trace_waited :
    ((Run.exec perform empty (sampleTrace 1)).endpoints ⟨"peer"⟩ 2002).map lastAuthentication =
      dialable ⟨"peer"⟩ (sampleTrace 1) 2002 ∧
    (dialable ⟨"peer"⟩ (sampleTrace 1) 2002).map Authentication.address = [.v4 2 2, .v4 1 1] :=
  ⟨endpoints_meet_trace ⟨"peer"⟩ (by decide) (by decide) (by decide) (by decide), by decide⟩

/-- At the largest time the clock can show, an address that failed just before may be dialled,
because the time to wait for was cut off there. -/
theorem endpoints_at_end_of_time :
    ((Run.exec perform empty (sampleTrace (i64Max - 3))).endpoints ⟨"peer"⟩ i64Max).map
      lastAuthentication ≠ dialable ⟨"peer"⟩ (sampleTrace (i64Max - 3)) i64Max := by
  decide

end EndpointMemory

end ArcRelay
