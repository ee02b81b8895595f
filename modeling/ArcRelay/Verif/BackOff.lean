import ArcRelay.Verif.Candidates
import ArcRelay.Verif.EndpointBooks

/-!
# Failed endpoints are backed off

A dial enters the failures of its candidates at the addresses it has dialled, and it
dials addresses in their canonical form. So an endpoint that was remembered in canonical
form is backed off when its dial fails, with either repository, and one that was
remembered as an IPv4 address in IPv6 form never is. The main result says so of every
endpoint that is returned and dialled, after any calls on the repository.
-/

namespace ArcRelay

open Async

/-! ## One dial -/

section Dial

variable {repository : EndpointRepository} {peerId : DeviceId}

variable (clock : Nat → Int)

/-- An endpoint that was returned is entered as failed: it has more failures, and it waits as long
as they say from the time of a call on. -/
structure Entered (start reads : Nat) (endpoint stored : RememberedEndpoint) : Prop where
  address : stored.address = endpoint.address
  failures : endpoint.consecutiveFailures < stored.consecutiveFailures
  retry : ∃ read, start ≤ read ∧ read < reads ∧
    stored.retryAfterMs = clock read + 2 ^ min stored.consecutiveFailures.toNat 8 * 1000

/-- The books of a dial: what was returned is there, with as many failures or more. -/
structure Followed (books : Books repository peerId) (count : Nat) (outage : Outage repository)
    (ledger : List RememberedEndpoint) : Prop where
  keeps : books.keeps count outage.state ledger
  orderly : Orderly peerId count ledger
  present : ∀ endpoint ∈ outage.returned, ∃ stored ∈ ledger, stored.address = endpoint.address ∧
    endpoint.consecutiveFailures ≤ stored.consecutiveFailures
  countable : ∀ endpoint ∈ outage.returned, endpoint.consecutiveFailures ≠ 0xffffffff

variable {clock} {books : Books repository peerId} {count start : Nat} {outage : Outage repository}
  {ledger : List RememberedEndpoint}

theorem lt_saturatingSucc {fewer value : UInt32} (le : fewer ≤ value) (most : fewer ≠ 0xffffffff) :
    fewer < saturatingSucc value := by
  have bound : fewer.toNat ≠ 2 ^ 32 - 1 := fun same => most (UInt32.toNat_inj.mp same)
  have size := fewer.toNat_lt
  rw [UInt32.lt_iff_toNat_lt, toNat_saturatingSucc]
  rw [UInt32.le_iff_toNat_le] at le
  omega

theorem retryAfterMs_backOff {time : Int} (inTime : InTime time) (endpoint : RememberedEndpoint) :
    (EndpointMemory.backOff endpoint time).retryAfterMs = time +
      2 ^ min (EndpointMemory.backOff endpoint time).consecutiveFailures.toNat 8 * 1000 := by
  simp only [EndpointMemory.backOff, saturatingAdd, saturate]
  have bound : (2 : Int) ^ min (saturatingSucc endpoint.consecutiveFailures).toNat 8 ≤ 2 ^ 8 :=
    pow_le_pow_right₀ (by decide) (Nat.min_le_right _ _)
  have positive : (0 : Int) ≤ 2 ^ min (saturatingSucc endpoint.consecutiveFailures).toNat 8 := by
    positivity
  have clock := inTime.clock
  have early := inTime.early
  omega

/-- `record_failure` at an address that is dialled for one of the books enters the failure. -/
theorem Followed.failed (followed : Followed books count outage ledger)
    (inTime : InTime (clock outage.reads)) (few : count < i64Max) {endpoint : RememberedEndpoint}
    (member : endpoint ∈ ledger) :
    ∃ after, outage.change clock (.recordFailure peerId (canonicalEndpoint endpoint.address)) =
        (.ok (), { outage with state := after, reads := outage.reads + 1 }) ∧
      Followed books (count + 1) { outage with state := after, reads := outage.reads + 1 }
        (enterFailure (canonicalEndpoint endpoint.address) (clock outage.reads) ledger) := by
  obtain ⟨after, recorded, keeps⟩ := books.failed followed.keeps followed.orderly inTime few member
  refine ⟨after, by rw [Outage.change, recorded], keeps, followed.orderly.enterFailure _ _, ?_,
    followed.countable⟩
  intro returned listed
  obtain ⟨stored, present, same, less⟩ := followed.present returned listed
  refine ⟨_, List.mem_map_of_mem present, ?_⟩
  split
  · exact ⟨same, UInt32.le_of_lt (lt_saturatingSucc less (followed.countable returned listed))⟩
  · exact ⟨same, less⟩

/-- What was entered as failed stays so, and the address that failed now is entered. -/
theorem Followed.entered (followed : Followed books count outage ledger)
    (inTime : InTime (clock outage.reads)) (begun : start ≤ outage.reads) (address : SocketAddr)
    {endpoint : RememberedEndpoint} (listed : endpoint ∈ outage.returned)
    (known : (∃ stored ∈ ledger, Entered clock start outage.reads endpoint stored) ∨
      endpoint.address = address) :
    ∃ stored ∈ enterFailure address (clock outage.reads) ledger,
      Entered clock start (outage.reads + 1) endpoint stored := by
  have now : ∀ stored ∈ ledger, stored.address = endpoint.address →
      endpoint.consecutiveFailures ≤ stored.consecutiveFailures →
        Entered clock start (outage.reads + 1) endpoint
          (EndpointMemory.backOff stored (clock outage.reads)) := fun stored _ same less =>
    ⟨same, lt_saturatingSucc less (followed.countable endpoint listed), outage.reads, begun,
      Nat.lt_succ_self _, retryAfterMs_backOff inTime stored⟩
  rcases known with ⟨stored, present, entered⟩ | rfl
  · refine ⟨_, List.mem_map_of_mem present, ?_⟩
    split
    · exact now stored present entered.address (UInt32.le_of_lt entered.failures)
    · obtain ⟨read, first, before, waits⟩ := entered.retry
      exact ⟨entered.address, entered.failures, read, first, Nat.lt_succ_of_lt before, waits⟩
  · obtain ⟨stored, present, same, less⟩ := followed.present endpoint listed
    refine ⟨_, List.mem_map_of_mem present, ?_⟩
    rw [if_pos same]
    exact now stored present same less

/-- How the dial of some addresses, all in vain, goes on with the books. -/
structure Advanced (clock : Nat → Int) (books : Books repository peerId) (start count : Nat)
    (before : Outage repository) (ledger : List RememberedEndpoint) (addresses : List SocketAddr)
    (after : Outage repository) (later : List RememberedEndpoint) : Prop where
  followed : Followed books (count + addresses.length) after later
  same : later.map RememberedEndpoint.address = ledger.map RememberedEndpoint.address
  returned : after.returned = before.returned
  reads : before.reads ≤ after.reads
  entered : ∀ endpoint ∈ before.returned,
    (∃ stored ∈ ledger, Entered clock start before.reads endpoint stored) ∨
        endpoint.address ∈ addresses →
      ∃ stored ∈ later, Entered clock start after.reads endpoint stored
  unchanged : ∀ stored ∈ later, stored.address ∉ addresses → stored ∈ ledger

theorem Advanced.refl (followed : Followed books count outage ledger) :
    Advanced clock books start count outage ledger [] outage ledger :=
  ⟨followed, rfl, rfl, le_refl _, fun _ _ known => known.resolve_right List.not_mem_nil,
    fun _ present _ => present⟩

/-- Two dials one after the other go on with the books as one dial of all addresses. -/
theorem Advanced.trans {between after : Outage repository} {middle later : List RememberedEndpoint}
    {first second : List SocketAddr}
    (earlier : Advanced clock books start count outage ledger first between middle)
    (further : Advanced clock books start (count + first.length) between middle second
      after later) :
    Advanced clock books start count outage ledger (first ++ second) after later where
  followed := by
    rw [List.length_append, ← Nat.add_assoc]
    exact further.followed
  same := further.same.trans earlier.same
  returned := further.returned.trans earlier.returned
  reads := earlier.reads.trans further.reads
  entered := by
    intro endpoint listed known
    rw [← earlier.returned] at listed
    refine further.entered endpoint listed ?_
    rw [earlier.returned] at listed
    rcases known with entered | dialled
    · exact Or.inl (earlier.entered endpoint listed (Or.inl entered))
    · rcases List.mem_append.mp dialled with one | other
      · exact Or.inl (earlier.entered endpoint listed (Or.inr one))
      · exact Or.inr other
  unchanged := by
    intro stored present elsewhere
    rw [List.mem_append, not_or] at elsewhere
    exact earlier.unchanged stored (further.unchanged stored present elsewhere.2) elsewhere.1

theorem Advanced.perm {after : Outage repository} {later : List RememberedEndpoint}
    {addresses others : List SocketAddr}
    (advanced : Advanced clock books start count outage ledger addresses after later)
    (perm : addresses.Perm others) :
    Advanced clock books start count outage ledger others after later :=
  ⟨perm.length_eq ▸ advanced.followed, advanced.same, advanced.returned, advanced.reads,
    fun endpoint listed known => advanced.entered endpoint listed
      (known.imp_right perm.mem_iff.mpr),
    fun stored present elsewhere => advanced.unchanged stored present
      fun dialled => elsewhere (perm.mem_iff.mp dialled)⟩

/-- The addresses that are dialled for the endpoints of the books. -/
def dialledFor (ledger : List RememberedEndpoint) : List SocketAddr :=
  (ledger.map RememberedEndpoint.address).map canonicalEndpoint

/-- When one address was dialled in vain, recording the failure goes on with the books. -/
theorem Followed.advanced (followed : Followed books count outage ledger)
    (inTime : InTime (clock outage.reads)) (begun : start ≤ outage.reads) (few : count < i64Max)
    {address : SocketAddr} (known : address ∈ dialledFor ledger) :
    ∃ after later, outage.change clock (.recordFailure peerId address) = (.ok (), after) ∧
      after.pending = outage.pending ∧ after.dialled = outage.dialled ∧
        Advanced clock books start count outage ledger [address] after later := by
  simp only [dialledFor, List.map_map, List.mem_map, Function.comp_apply] at known
  obtain ⟨endpoint, member, rfl⟩ := known
  obtain ⟨after, changed, further⟩ := followed.failed inTime few member
  refine ⟨_, _, changed, rfl, rfl, further, address_enterFailure _ _, rfl, Nat.le_succ _,
    fun returned listed entered => followed.entered inTime begun _ listed
      (entered.imp_right List.mem_singleton.mp), fun stored present elsewhere => ?_⟩
  obtain ⟨before, inside, rfl⟩ := List.mem_map.mp present
  have apart : before.address ≠ canonicalEndpoint endpoint.address := by
    intro same
    rw [if_pos same] at elsewhere
    exact elsewhere (List.mem_singleton.mpr same)
  rw [if_neg apart]
  exact inside

end Dial

/-! ## The races of a dial -/

namespace Runtime

variable {self : Runtime} {repository : EndpointRepository} {peerId : DeviceId}
  {clock : Nat → Int} {results : Nat → List SocketAddr → List CandidateResult}
  {books : Books repository peerId} {count start : Nat} {outage : Outage repository}
  {ledger : List RememberedEndpoint}

variable {expected : ExpectedPeer}

/-- The results of a race that is in vain are joined one after the other, and every failure is
recorded. -/
theorem wp_joinCandidates {race : Nat} (expects : expected.id = peerId)
    (inTime : ∀ read, InTime (clock read)) (fails : List CandidateResult) (noted : RaceFailures)
    (pending : outage.pending[race]? = some fails)
    (failed : ∀ result ∈ fails, result.result.isOk = false)
    (followed : Followed books count outage ledger) (begun : start ≤ outage.reads)
    (known : ∀ result ∈ fails, result.address ∈ dialledFor ledger)
    (few : count + fails.length < i64Max) :
    (self.joinCandidates race expected .history fails.length noted).run.wp
      (Outage.handle self.platform clock results)
      (fun result after => (∃ error, result = .error error) ∧
        after.dialled = outage.dialled ∧ ∃ later, Advanced clock books start count outage ledger
          (fails.map CandidateResult.address) after later) outage := by
  induction fails generalizing outage ledger count noted with
  | nil => exact ⟨⟨_, rfl⟩, rfl, ledger, .refl followed⟩
  | cons first fails ih =>
    refine wp_bind (wp_call fun proposal reply joined answered => ?_)
    simp only [Outage.handle, pending] at answered
    cases answered
    have lost := failed first List.mem_cons_self
    cases outcome : first.result with
    | ok session => simp [outcome, Except.isOk, Except.toBool] at lost
    | error error =>
      simp only [outcome]
      let popped : Outage repository := { outage with pending := outage.pending.set race fails }
      have here : Followed books count popped ledger :=
        ⟨followed.keeps, followed.orderly, followed.present, followed.countable⟩
      rw [List.length_cons] at few
      obtain ⟨after, middle, changed, waits, dialled, advanced⟩ := here.advanced (inTime _) begun
        (by omega) (known first List.mem_cons_self)
      refine wp_bind (wp_bind (wp_call fun proposal reply last answered => ?_))
      simp only [Outage.handle, expects, popped, changed] at answered
      cases answered
      have moved : Advanced clock books start count outage ledger [first.address] after middle :=
        ⟨advanced.followed, advanced.same, advanced.returned, advanced.reads, advanced.entered,
          advanced.unchanged⟩
      have left : after.pending[race]? = some fails := by
        obtain ⟨bound, -⟩ := List.getElem?_eq_some_iff.mp pending
        rw [waits]
        exact List.getElem?_set_self bound
      show Program.wp (Outage.handle self.platform clock results) _
        (self.joinCandidates race expected .history fails.length _).run after
      refine Program.wp_mono (ih _ left (fun result member => failed result
        (List.mem_cons_of_mem _ member)) advanced.followed (begun.trans advanced.reads)
        (fun result member => ?_) ?_) fun result last ended => ?_
      · rw [dialledFor, advanced.same]
        exact known result (List.mem_cons_of_mem _ member)
      · rw [List.length_singleton]
        omega
      · obtain ⟨error, same, later, further⟩ := ended
        exact ⟨error, same.trans dialled, later, moved.trans further⟩

/-- A race in vain enters every address it dials as failed. -/
theorem wp_raceEndpointsOn {addresses : List SocketAddr} {kind : SessionKind} {recovery : Bool}
    (expects : expected.id = peerId) (inTime : ∀ read, InTime (clock read))
    (allFail : Outage.AllFail results) (followed : Followed books count outage ledger)
    (begun : start ≤ outage.reads)
    (known : ∀ address ∈ uniqueEndpoints [] addresses, address ∈ dialledFor ledger)
    (few : count + 16 < i64Max) :
    (self.raceEndpointsOn addresses expected kind .history recovery).run.wp
      (Outage.handle self.platform clock results)
      (fun result after => (∃ error, result = .error error) ∧
        ∃ dialled later, after.dialled = outage.dialled ++ dialled ∧ dialled.length ≤ 16 ∧
          (∀ address ∈ dialled, address ∈ uniqueEndpoints [] addresses) ∧
            Advanced clock books start count outage ledger dialled after later) outage := by
  refine wp_bind (wp_ofExcept ?_)
  cases vacant : (uniqueEndpoints [] addresses).isEmpty with
  | true => exact ⟨⟨_, rfl⟩, [], ledger, by simp, by simp, by simp, .refl followed⟩
  | false =>
    refine wp_bind (wp_call fun proposal race started answered => ?_)
    simp only [Outage.handle] at answered
    cases answered
    obtain ⟨perm, fails⟩ := allFail outage.pending.length (uniqueEndpoints [] addresses)
    have length : (uniqueEndpoints [] addresses).length =
        (results outage.pending.length (uniqueEndpoints [] addresses)).length := by
      rw [← perm.length_eq, List.length_map]
    have most : (uniqueEndpoints [] addresses).length ≤ 16 := length_uniqueEndpoints_le (by decide)
    let started : Outage repository := { outage with
      pending := outage.pending ++ [results outage.pending.length (uniqueEndpoints [] addresses)]
      dialled := outage.dialled ++ uniqueEndpoints [] addresses }
    have here : Followed books count started ledger :=
      ⟨followed.keeps, followed.orderly, followed.present, followed.countable⟩
    show Program.wp _ _ (self.joinCandidates outage.pending.length expected .history
      (uniqueEndpoints [] addresses).length _).run started
    rw [length]
    refine Program.wp_mono (wp_joinCandidates expects inTime _ _ ?_ fails here begun
      (fun result member => known _ (perm.mem_iff.mp (List.mem_map_of_mem member))) (by omega))
      fun result after ended => ?_
    · simp [started]
    · obtain ⟨error, dialled, later, advanced⟩ := ended
      have moved := advanced.perm perm
      exact ⟨error, _, later, dialled, most, fun _ member => member, moved.followed, moved.same,
        moved.returned, moved.reads, moved.entered, moved.unchanged⟩

/-- A dial in vain, with a second race or without, enters every address it dials as failed. -/
theorem wp_raceEndpoints {addresses : List SocketAddr} {kind : SessionKind}
    (expects : expected.id = peerId) (inTime : ∀ read, InTime (clock read))
    (allFail : Outage.AllFail results) (followed : Followed books count outage ledger)
    (begun : start ≤ outage.reads)
    (known : ∀ address ∈ uniqueEndpoints [] addresses, address ∈ dialledFor ledger)
    (few : count + 32 < i64Max) :
    (self.raceEndpoints addresses expected kind .history).run.wp
      (Outage.handle self.platform clock results) (fun _ after => ∃ dialled later,
        after.dialled = outage.dialled ++ dialled ∧
          (∀ address ∈ dialled, address ∈ uniqueEndpoints [] addresses) ∧
          Advanced clock books start count outage ledger dialled after later) outage := by
  refine Program.wp_bind (Program.wp_mono (wp_raceEndpointsOn expects inTime allFail followed begun
    known (by omega)) fun result between ended => ?_)
  obtain ⟨⟨⟨error, retry⟩, rfl⟩, first, middle, dialled, length, unique, advanced⟩ := ended
  dsimp only
  split
  · exact ⟨first, middle, dialled, unique, advanced⟩
  · refine Program.wp_bind fun proposal reply after answered => ?_
    cases answered
    cases proposal with
    | error error => exact ⟨first, middle, dialled, unique, advanced⟩
    | ok _ =>
      refine Program.wp_bind (Program.wp_mono (wp_raceEndpointsOn expects inTime allFail
        advanced.followed (begun.trans advanced.reads) (fun address member => ?_) (by omega))
        fun result last ended => ?_)
      · rw [dialledFor, advanced.same]
        exact known address member
      · obtain ⟨-, second, later, dialled', -, unique', further⟩ := ended
        refine ⟨first ++ second, later, by rw [dialled', dialled, List.append_assoc],
          fun address member => ?_, advanced.trans further⟩
        exact (List.mem_append.mp member).elim (unique address) (unique' address)

/-! ## The dial of remembered endpoints -/

/-- A dial of remembered endpoints leaves the books in order. What was returned and dialled is
entered as failed, and an IPv4 address in IPv6 form has the failures it had. -/
def BackedOff (clock : Nat → Int) (books : Books repository peerId) (start : Nat)
    (after : Outage repository) : Prop :=
  ∃ count ledger, books.keeps count after.state ledger ∧ Orderly peerId count ledger ∧
    ∀ endpoint ∈ after.returned, canonicalEndpoint endpoint.address ∈ after.dialled →
      (endpoint.address.isMapped = false →
        ∃ stored ∈ ledger, Entered clock start after.reads endpoint stored) ∧
      (endpoint.address.isMapped = true → ∀ stored ∈ ledger, stored.address = endpoint.address →
        stored.consecutiveFailures = endpoint.consecutiveFailures)

theorem BackedOff.of_returned {after : Outage repository} (unreturned : after.returned = [])
    (start : Nat) (keeps : books.keeps count after.state ledger)
    (orderly : Orderly peerId count ledger) : BackedOff clock books start after :=
  ⟨count, ledger, keeps, orderly, fun endpoint member => by simp [unreturned] at member⟩

/-- The part under the dial gate. -/
theorem wp_dialRemembered {peer : PeerRecord} {kind : SessionKind} (pinned : peer.deviceId = peerId)
    (inTime : ∀ read, InTime (clock read)) (allFail : Outage.AllFail results)
    (keeps : books.keeps count outage.state ledger) (orderly : Orderly peerId count ledger)
    (few : count < 2 ^ 32 - 1) (unreturned : outage.returned = [])
    (undialled : outage.dialled = []) :
    Program.wp (Outage.handle self.platform clock results)
      (fun _ after => BackedOff clock books outage.reads after)
      (ExceptT.run (do
        let stored ← ask (.endpoints peerId)
        let endpoints ← Async.ofExcept stored
        Async.refuse endpoints.isEmpty (.connect "peer has no remembered authenticated endpoint")
        self.raceEndpoints (endpoints.map RememberedEndpoint.address) (.paired peer) kind .history :
        Action Session)) outage := by
  refine wp_bind (wp_call fun proposal stored between answered => ?_)
  simp only [Outage.handle, Option.some.injEq, Prod.mk.injEq] at answered
  obtain ⟨listed, rfl⟩ := answered
  dsimp only
  refine wp_bind (wp_ofExcept ?_)
  cases stored with
  | error error =>
    have returned : outage.returned ++
        (repository.endpoints outage.state peerId (clock outage.reads)).toOption.getD [] = [] := by
      rw [listed, unreturned]
      rfl
    exact .of_returned returned _ keeps orderly
  | ok endpoints =>
    have returned : outage.returned ++
        (repository.endpoints outage.state peerId (clock outage.reads)).toOption.getD [] =
          endpoints := by
      rw [listed, unreturned]
      rfl
    dsimp only
    rw [returned]
    have here : Followed books count
        { outage with reads := outage.reads + 1, returned := endpoints } ledger := by
      refine ⟨keeps, orderly, fun endpoint member => ?_, fun endpoint member most => ?_⟩
      · exact ⟨endpoint, (books.listed keeps listed endpoint member).1, rfl, UInt32.le_refl _⟩
      · have bound := orderly.counted endpoint (books.listed keeps listed endpoint member).1
        rw [most] at bound
        exact absurd bound (by simp only [UInt32.reduceToNat]; omega)
    have known : ∀ address ∈ uniqueEndpoints [] (endpoints.map RememberedEndpoint.address),
        address ∈ dialledFor ledger ∧ address.isMapped = false := by
      intro address member
      rcases mem_of_mem_uniqueEndpoints member with absent | canonical
      · exact absurd absent List.not_mem_nil
      · simp only [List.map_map, List.mem_map, Function.comp_apply] at canonical
        obtain ⟨endpoint, inside, rfl⟩ := canonical
        have present := (books.listed keeps listed endpoint inside).1
        exact ⟨List.mem_map_of_mem (List.mem_map_of_mem present), isMapped_canonicalEndpoint _⟩
    refine wp_bind (wp_ofExcept ?_)
    cases vacant : endpoints.isEmpty with
    | true =>
      exact .of_returned (List.isEmpty_iff.mp vacant) _ keeps orderly
    | false =>
      refine Program.wp_mono (wp_raceEndpoints pinned inTime allFail here (Nat.le_succ _)
        (fun address member => (known address member).1)
        (by simp only [i64Max]; omega)) fun result after ended => ?_
      obtain ⟨dialled, later, all, unique, advanced⟩ := ended
      refine ⟨_, later, advanced.followed.keeps, advanced.followed.orderly, ?_⟩
      intro endpoint member candidate
      rw [advanced.returned] at member
      rw [all, undialled, List.nil_append] at candidate
      refine ⟨fun plain => ?_, fun mapped stored inside same => ?_⟩
      · rcases canonicalEndpoint_cases endpoint.address with ⟨mapped, -⟩ | ⟨-, same⟩
        · exact absurd (plain.symm.trans mapped) Bool.noConfusion
        rw [same] at candidate
        exact advanced.entered endpoint member (.inr candidate)
      · -- No address of this form is dialled, so its entry is the one that was returned.
        have before := advanced.unchanged stored inside fun tried => by
          have canonical := (known _ (unique _ tried)).2
          rw [same, mapped] at canonical
          cases canonical
        rw [List.inj_on_of_nodup_map orderly.distinct before
          (books.listed keeps listed endpoint member).1 same]

/-- What holds after a program under the dial gate and what held before it. -/
theorem wp_withDialGate {key : SessionKey} {ends : Outage repository → Prop}
    {program : Action Session}
    (inside : program.run.wp (Outage.handle self.platform clock results) (fun _ after => ends after)
      outage) :
    (withDialGate key program).run.wp (Outage.handle self.platform clock results)
      (fun _ after => ends after) outage := by
  refine wp_bind (wp_call fun _ _ _ answered => ?_)
  cases answered
  refine wp_bind (wp_call fun _ _ _ answered => ?_)
  cases answered
  refine wp_bind (Program.wp_bind (Program.wp_mono inside fun result after ended => ?_))
  refine wp_bind (wp_call fun _ _ _ answered => ?_)
  cases answered
  exact ended

/-- `connect_remembered` in vain backs off what it has dialled. -/
theorem wp_connectRemembered (kind : SessionKind) (inTime : ∀ read, InTime (clock read))
    (allFail : Outage.AllFail results) (keeps : books.keeps count outage.state ledger)
    (orderly : Orderly peerId count ledger) (few : count < 2 ^ 32 - 1)
    (unreturned : outage.returned = []) (undialled : outage.dialled = []) :
    (self.connectRemembered peerId kind).run.wp (Outage.handle self.platform clock results)
      (fun _ after => BackedOff clock books outage.reads after) outage := by
  have early : BackedOff clock books outage.reads outage := .of_returned unreturned _ keeps orderly
  refine wp_bind (wp_bind (wp_call fun proposal reply between answered => ?_))
  simp only [Outage.handle, Option.some.injEq, Prod.mk.injEq] at answered
  obtain ⟨stored, rfl⟩ := answered
  refine wp_bind (wp_ofExcept ?_)
  cases reply with
  | error error => exact early
  | ok found =>
    dsimp only [repositoryResult, Except.mapError]
    split
    · exact early
    · rename_i peer paired
      obtain ⟨same, -⟩ := Option.filter_eq_some_iff.mp paired
      have pinned : peer.deviceId = peerId :=
        (Database.bound_of_peer (World.read_eq_ok (same ▸ stored))).1
      refine wp_bind (wp_ofExcept ?_)
      refine wp_withDialGate (wp_bind (wp_call fun active _ _ answered => ?_))
      cases answered
      cases active with
      | some session => exact early
      | none =>
        exact wp_dialRemembered pinned inTime allFail keeps orderly few unreturned undialled

/-- Every remembered endpoint that was returned and dialled has more failures than it had. It is to
wait as long as they say, and is not returned before. -/
def Waiting (peerId : DeviceId) (clock : Nat → Int) (start final : Outage repository) : Prop :=
  ∀ endpoint ∈ final.returned, canonicalEndpoint endpoint.address ∈ final.dialled →
    ∃ stored, repository.Stores final.state peerId stored ∧
      Entered clock start.reads final.reads endpoint stored ∧
      ∀ now < stored.retryAfterMs, ∀ endpoints,
        repository.endpoints final.state peerId now = .ok endpoints →
          ∀ other ∈ endpoints, other.address ≠ endpoint.address

/-- None of the endpoints that were returned and dialled is an IPv4 address in IPv6 form. -/
def DialledAsStored (final : Outage repository) : Prop :=
  ∀ endpoint ∈ final.returned, canonicalEndpoint endpoint.address ∈ final.dialled →
    endpoint.address.isMapped = false

/-- What is backed off waits, exactly if it was dialled at the address it is stored at. -/
theorem BackedOff.waiting_iff {start final : Outage repository}
    (backedOff : BackedOff clock books start.reads final) :
    Waiting peerId clock start final ↔ DialledAsStored final := by
  obtain ⟨count, ledger, keeps, orderly, entered⟩ := backedOff
  constructor
  · intro waiting endpoint returned dialled
    obtain ⟨stored, kept, known, -⟩ := waiting endpoint returned dialled
    have inside := (books.stored keeps orderly stored).mp kept
    cases mapped : endpoint.address.isMapped with
    | false => rfl
    | true =>
      have same := (entered endpoint returned dialled).2 mapped stored inside known.address
      exact absurd (same ▸ known.failures) (UInt32.lt_irrefl _)
  · intro canonical endpoint returned dialled
    obtain ⟨stored, present, known⟩ :=
      (entered endpoint returned dialled).1 (canonical endpoint returned dialled)
    refine ⟨stored, (books.stored keeps orderly stored).mpr present, known, ?_⟩
    intro now early endpoints listed other member same
    obtain ⟨inside, due⟩ := books.listed keeps listed other member
    -- No address is in the books twice.
    obtain rfl : other = stored :=
      List.inj_on_of_nodup_map orderly.distinct inside present (same.trans known.address.symm)
    omega

/-- A dial in vain, from books that are in order after any calls. -/
theorem waiting_iff_of_runs (books : Books repository peerId) {state : repository.State}
    (empty : books.keeps 0 state []) (kind : SessionKind) (inTime : ∀ read, InTime (clock read))
    (allFail : Outage.AllFail results) {trace : List Timed}
    (before : ∀ timed ∈ trace, InTime timed.time) (few : trace.length < 2 ^ 32 - 1)
    {start final : Outage repository} {result : Except NetworkError Session}
    (recorded : start.state = Run.exec repository.perform state trace)
    (unreturned : start.returned = []) (undialled : start.dialled = [])
    (runs : Program.Runs (Outage.handle self.platform clock results) start
      (self.connectRemembered peerId kind).run result final) :
    Waiting peerId clock start final ↔ DialledAsStored final := by
  obtain ⟨ledger, keeps, orderly⟩ := books.run empty before (by simp only [i64Max]; omega)
  rw [← recorded] at keeps
  have ends : (self.connectRemembered peerId kind).run.wp
      (Outage.handle self.platform clock results)
      (fun _ after => BackedOff clock books start.reads after) start :=
    wp_connectRemembered kind inTime allFail keeps orderly few unreturned undialled
  have backedOff := Program.wp_sound ends runs
  exact backedOff.waiting_iff

/-- After any calls that recorded sessions and failures of any peers at any addresses, and with
either repository, a `connect_remembered` all of whose candidates fail backs off what it has
dialled, exactly if none of the endpoints that were returned and dialled is an IPv4 address in IPv6
form: then each of them counts more failures and is not returned before its time. -/
theorem failed_endpoints_wait (self : Runtime) {peerId : DeviceId}
    (parsed : self.platform.parseDeviceId peerId.asStr = .ok peerId) (kind : SessionKind)
    {clock : Nat → Int} (inTime : ∀ read, InTime (clock read))
    {results : Nat → List SocketAddr → List CandidateResult} (allFail : Outage.AllFail results)
    {trace : List Timed} (before : ∀ timed ∈ trace, InTime timed.time)
    (few : trace.length < 2 ^ 32 - 1) :
    (∀ (start final : Outage .memory) (result : Except NetworkError Session),
      start.state = Run.exec EndpointRepository.memory.perform EndpointMemory.empty trace →
      start.returned = [] → start.dialled = [] →
      Program.Runs (Outage.handle self.platform clock results) start
        (self.connectRemembered peerId kind).run result final →
      (Waiting peerId clock start final ↔ DialledAsStored final)) ∧
    ∀ (store : PeerStore) (start final : Outage (.sqlite self.platform))
      (result : Except NetworkError Session), store.endpoints.rows = [] →
      start.state = Run.exec (EndpointRepository.sqlite self.platform).perform store trace →
      start.returned = [] → start.dialled = [] →
      Program.Runs (Outage.handle self.platform clock results) start
        (self.connectRemembered peerId kind).run result final →
      (Waiting peerId clock start final ↔ DialledAsStored final) := by
  constructor
  · intro start final result recorded unreturned undialled runs
    have empty : (memoryBooks peerId).keeps 0 EndpointMemory.empty [] := rfl
    exact waiting_iff_of_runs (memoryBooks peerId) empty kind inTime allFail before few recorded
      unreturned undialled runs
  · intro store start final result vacant recorded unreturned undialled runs
    have empty : (storeBooks self.platform parsed).keeps 0 store [] :=
      ⟨⟨nofun, fun row present => by simp [vacant] at present⟩,
        fun row present => by simp [vacant] at present⟩
    exact waiting_iff_of_runs (storeBooks self.platform parsed) empty kind inTime allFail before few
      recorded unreturned undialled runs

/-- All candidates time out. -/
def timeouts (_ : Nat) (candidates : List SocketAddr) : List CandidateResult :=
  candidates.map fun address => ⟨address, .quicHandshake, false, .error .timeout⟩

theorem timeouts_allFail : Outage.AllFail timeouts := by
  intro race candidates
  constructor
  · have same : (timeouts race candidates).map CandidateResult.address = candidates := by
      rw [timeouts, List.map_map]
      exact List.map_id candidates
    rw [same]
  · intro result member
    obtain ⟨address, -, rfl⟩ := List.mem_map.mp member
    rfl

/-- A session with Bob was authenticated at an address. -/
def reached (address : SocketAddr) : List Timed :=
  [⟨1, .recordAuthenticated ⟨"bob"⟩ address (Vector.replicate 32 0) .mdns⟩]

/-- Alice is paired with Bob and has the sessions recorded in memory. -/
def remembering (trace : List Timed) : Outage .memory where
  database := Database.empty.upsertPeer
    (encodePeer ⟨⟨"bob"⟩, .sample "bob", "", "", "", .paired, false, 0, 0⟩)
  state := Run.exec EndpointRepository.memory.perform EndpointMemory.empty trace
  reads := 0
  pending := []
  returned := []
  dialled := []

/-- Alice, in a place without a network. -/
def stranded : Runtime := .sample (.sample [] ⟨none, []⟩) "alice" 1

/-- What is dialled for Bob at the time 1000, and the failures that are then recorded. -/
def dialInVain (trace : List Timed) : Option (List SocketAddr × List SocketAddr × List UInt32) :=
  (Program.eval (Outage.handle stranded.platform (fun _ => 1000) timeouts)
    (fun _ call => call.smooth) 0 (stranded.connectRemembered ⟨"bob"⟩ .control).run
      (remembering trace)).map fun run =>
    let final := run.2.2
    (final.returned.map RememberedEndpoint.address, final.dialled,
      ((final.state : EndpointMemory) ⟨"bob"⟩).map RememberedEndpoint.consecutiveFailures)

/-- What is shown of a dial in vain is what a run of it leaves. -/
theorem runs_of_dialInVain {trace : List Timed} {returned dialled : List SocketAddr}
    {failures : List UInt32} (shown : dialInVain trace = some (returned, dialled, failures)) :
    ∃ result final, Program.Runs (Outage.handle stranded.platform (fun _ => 1000) timeouts)
        (remembering trace) (stranded.connectRemembered ⟨"bob"⟩ .control).run result final ∧
      final.returned.map RememberedEndpoint.address = returned ∧ final.dialled = dialled ∧
      ((final.state : EndpointMemory) ⟨"bob"⟩).map RememberedEndpoint.consecutiveFailures =
        failures := by
  obtain ⟨⟨moments, result, final⟩, evaluated, seen⟩ := Option.map_eq_some_iff.mp shown
  obtain ⟨first, second, third⟩ := by simpa only [Prod.mk.injEq] using seen
  exact ⟨result, final, Program.runs_of_eval evaluated, first, second, third⟩

/-- Where the address of Bob was recorded as an IPv4 address, it waits after the dial in vain. -/
theorem failed_endpoints_wait_counted :
    ∃ result final, Program.Runs (Outage.handle stranded.platform (fun _ => 1000) timeouts)
        (remembering (reached (.v4 1 1)))
        (stranded.connectRemembered ⟨"bob"⟩ .control).run result final ∧
      final.returned.map RememberedEndpoint.address = [.v4 1 1] ∧
      .v4 1 1 ∈ final.dialled ∧
      Waiting ⟨"bob"⟩ (fun _ => 1000) (remembering (reached (.v4 1 1))) final := by
  have shown : dialInVain (reached (.v4 1 1)) = some ([.v4 1 1], [.v4 1 1, .v4 1 1], [2]) := by
    decide +kernel
  obtain ⟨result, final, runs, returned, dialled, -⟩ := runs_of_dialInVain shown
  have before : ∀ timed ∈ reached (.v4 1 1), InTime timed.time := by
    intro timed member
    obtain rfl := List.mem_singleton.mp member
    exact ⟨by decide, by decide⟩
  have canonical : DialledAsStored final := by
    intro endpoint member _
    have here : endpoint.address ∈ final.returned.map RememberedEndpoint.address :=
      List.mem_map_of_mem member
    rw [returned, List.mem_singleton] at here
    rw [here]
    rfl
  have waiting := ((failed_endpoints_wait stranded rfl .control (fun _ => ⟨by decide, by decide⟩)
    timeouts_allFail before (by decide)).1 _ final result rfl rfl rfl runs).mpr canonical
  exact ⟨result, final, runs, returned, by rw [dialled]; decide, waiting⟩

/-- Where the address of Bob was recorded as an IPv4 address in IPv6 form, the failures of the dial
are recorded at the IPv4 address, and the endpoint that was returned and dialled does not wait. -/
theorem mapped_endpoint_not_counted :
    ∃ result final, Program.Runs (Outage.handle stranded.platform (fun _ => 1000) timeouts)
        (remembering (reached (.v6 0xffff00000001 1 0 0)))
        (stranded.connectRemembered ⟨"bob"⟩ .control).run result final ∧
      final.returned.map RememberedEndpoint.address = [.v6 0xffff00000001 1 0 0] ∧
      canonicalEndpoint (.v6 0xffff00000001 1 0 0) ∈ final.dialled ∧
      ¬ Waiting ⟨"bob"⟩ (fun _ => 1000) (remembering (reached (.v6 0xffff00000001 1 0 0)))
        final := by
  have shown : dialInVain (reached (.v6 0xffff00000001 1 0 0)) =
      some ([.v6 0xffff00000001 1 0 0], [.v4 1 1, .v4 1 1], [0]) := by
    decide +kernel
  obtain ⟨result, final, runs, returned, dialled, failures⟩ := runs_of_dialInVain shown
  have dials : canonicalEndpoint (.v6 0xffff00000001 1 0 0) ∈ final.dialled := by
    rw [dialled]
    decide
  refine ⟨result, final, runs, returned, dials, fun waiting => ?_⟩
  obtain ⟨endpoint, member, address⟩ : ∃ endpoint ∈ final.returned,
      endpoint.address = .v6 0xffff00000001 1 0 0 := by
    rw [← List.mem_map, returned]
    exact List.mem_cons_self
  obtain ⟨stored, kept, entered, -⟩ := waiting endpoint member (address ▸ dials)
  have zero : stored.consecutiveFailures = 0 := by
    have counted : stored.consecutiveFailures ∈ ((final.state : EndpointMemory) ⟨"bob"⟩).map
        RememberedEndpoint.consecutiveFailures := List.mem_map_of_mem kept
    rw [failures] at counted
    exact List.mem_singleton.mp counted
  have more := entered.failures
  rw [zero] at more
  exact absurd more (UInt32.not_lt_zero)

end Runtime

end ArcRelay
