import ArcRelay.Scan
import ArcRelay.Verif.Merging

/-!
# What a scan probes

The endpoints of a scan are the hosts of at most two networks, each once and without
the addresses of the interfaces that were considered. The networks are those with the
two smallest prefixes. Whether they are the ones with the best interfaces, and whether
the device itself is spared, depends on the addresses, and the main result says how.
-/

namespace ArcRelay.Scan

/-! ## Addresses -/

theorem octet_ipv4 (first second third last : UInt8) :
    octet (ipv4 first second third last) 3 = first ∧
      octet (ipv4 first second third last) 2 = second ∧
      octet (ipv4 first second third last) 1 = third ∧
      octet (ipv4 first second third last) 0 = last := by
  have bounds := And.intro first.toNat_lt (And.intro second.toNat_lt
    (And.intro third.toNat_lt last.toNat_lt))
  have value : (ipv4 first second third last).toNat =
      first.toNat * 256 ^ 3 + second.toNat * 256 ^ 2 + third.toNat * 256 + last.toNat := by
    rw [ipv4, BitVec.toNat_ofNat]
    exact Nat.mod_eq_of_lt (by omega)
  refine ⟨?_, ?_, ?_, ?_⟩ <;> rw [octet, value, ← UInt8.toNat_inj, UInt8.toNat_ofNat'] <;> omega

theorem ipv4_octet (address : BitVec 32) :
    ipv4 (octet address 3) (octet address 2) (octet address 1) (octet address 0) = address := by
  have small := address.isLt
  rw [← BitVec.toNat_inj, ipv4, BitVec.toNat_ofNat]
  simp only [octet, UInt8.toNat_ofNat']
  omega

variable {address : BitVec 32}

/-- The hosts of a network are the addresses in it but the first and the last one. -/
theorem mem_subnetHosts {subnet : SubnetPrefix} :
    address ∈ subnetHosts subnet ↔
      subnetPrefix address = subnet ∧ 1 ≤ (octet address 0).toNat ∧
        (octet address 0).toNat ≤ 254 := by
  rw [subnetHosts, List.mem_map]
  constructor
  · rintro ⟨host, inside, rfl⟩
    rw [List.mem_range'_1] at inside
    obtain ⟨first, second, third, last⟩ :=
      octet_ipv4 subnet.first subnet.second subnet.third (.ofNat host)
    rw [subnetPrefix, first, second, third, last, UInt8.toNat_ofNat']
    exact ⟨rfl, by omega, by omega⟩
  · rintro ⟨rfl, first, last⟩
    refine ⟨(octet address 0).toNat, List.mem_range'_1.mpr ⟨first, by omega⟩, ?_⟩
    rw [UInt8.ofNat_toNat]
    exact ipv4_octet address

theorem nodup_subnetHosts (subnet : SubnetPrefix) : (subnetHosts subnet).Nodup := by
  refine List.Nodup.map_on ?_ List.nodup_range'
  intro host inside other insideOther same
  rw [List.mem_range'_1] at inside insideOther
  have lasts := congrArg (octet · 0) same
  simp only [(octet_ipv4 _ _ _ _).2.2.2] at lasts
  have numbers := congrArg UInt8.toNat lasts
  rw [UInt8.toNat_ofNat', UInt8.toNat_ofNat'] at numbers
  omega

/-! ## Interfaces and networks -/

theorem mem_localScanInterfaces {interfaces : List Interface} {entry : String × BitVec 32} :
    entry ∈ localScanInterfaces interfaces ↔
      ∃ candidate ∈ interfaces, eligible candidate = some entry := by
  rw [localScanInterfaces, List.mem_insertionSort, List.mem_filterMap]

theorem isLoopback_of_isPrivate (owned : isPrivate address = true) :
    (IpAddr.v4 address).isLoopback = false := by
  have leading : (octet address 3).toNat = address.toNat / 2 ^ 24 := by
    have small := address.isLt
    rw [octet, UInt8.toNat_ofNat']
    omega
  have known : octet address 3 = 10 ∨ octet address 3 = 172 ∨ octet address 3 = 192 := by
    simp only [isPrivate, Bool.or_eq_true, Bool.and_eq_true, beq_iff_eq] at owned
    rcases owned with (ten | ⟨oneSevenTwo, -⟩) | ⟨oneNineTwo, -⟩
    · exact .inl ten
    · exact .inr (.inl oneSevenTwo)
    · exact .inr (.inr oneNineTwo)
  rw [IpAddr.isLoopback, ← leading]
  rcases known with octet | octet | octet <;> rw [octet] <;> rfl

/-- An eligible interface has a private address, and its name is not that of a virtual one. -/
theorem eligible_eq_some {candidate : Interface} {entry : String × BitVec 32} :
    eligible candidate = some entry ↔
      candidate = ⟨entry.1, .v4 entry.2⟩ ∧ isPrivate entry.2 = true ∧
        isLikelyVirtual entry.1 = false := by
  obtain ⟨name, ip⟩ := candidate
  obtain ⟨known, address⟩ := entry
  cases ip with
  | v6 other => simp [eligible]
  | v4 other =>
    simp only [eligible, Option.ite_none_right_eq_some, Bool.and_eq_true, Bool.not_eq_true',
      Option.some.injEq, Prod.mk.injEq, Interface.mk.injEq, IpAddr.v4.injEq]
    constructor
    · rintro ⟨⟨⟨owned, -⟩, real⟩, rfl, rfl⟩
      exact ⟨⟨rfl, rfl⟩, owned, real⟩
    · rintro ⟨⟨rfl, rfl⟩, owned, real⟩
      exact ⟨⟨⟨owned, isLoopback_of_isPrivate owned⟩, real⟩, rfl, rfl⟩

theorem isPrivate_of_subnetPrefix {other : BitVec 32}
    (same : subnetPrefix address = subnetPrefix other) : isPrivate address = isPrivate other := by
  have first : octet address 3 = octet other 3 := congrArg SubnetPrefix.first same
  have second : octet address 2 = octet other 2 := congrArg SubnetPrefix.second same
  rw [isPrivate, isPrivate, first, second]

/-- The selected networks are different ones, in the order of their prefixes. -/
theorem pairwise_subnets (interfaces : List Interface) :
    (subnets interfaces).Pairwise (· < ·) :=
  (pairwise_sortDedup _).sublist (List.take_sublist _ _)

/-- The first two elements of a sorted list are those with at most one smaller element. -/
theorem mem_take_two {α : Type} [LinearOrder α] {sorted : List α}
    (strictly : sorted.Pairwise (· < ·)) {value : α} :
    value ∈ sorted.take 2 ↔ value ∈ sorted ∧ ∀ first ∈ sorted, ∀ second ∈ sorted,
      first < value → second < value → first = second := by
  cases sorted with
  | nil => simp
  | cons least others =>
    cases others with
    | nil => simp
    | cons next others =>
      simp only [List.pairwise_cons, List.forall_mem_cons] at strictly
      obtain ⟨⟨before, leastBefore⟩, nextBefore, -⟩ := strictly
      constructor
      · intro taken
        refine ⟨List.mem_of_mem_take taken, ?_⟩
        -- Below the second element there is the first one only.
        have below : ∀ smaller ∈ least :: next :: others, smaller < value → smaller = least := by
          have bound : value ≤ next := by
            simp only [List.take_succ_cons, List.take_zero, List.mem_cons, List.not_mem_nil,
              or_false] at taken
            rcases taken with rfl | rfl
            · exact before.le
            · exact le_refl _
          intro smaller member less
          rcases List.mem_cons.mp member with rfl | rest
          · rfl
          · rcases List.mem_cons.mp rest with rfl | rest
            · exact absurd less (not_lt.mpr bound)
            · exact absurd (less.trans_le bound) (lt_asymm (nextBefore _ rest))
        intro first firstMember second secondMember firstLess secondLess
        rw [below first firstMember firstLess, below second secondMember secondLess]
      · rintro ⟨member, few⟩
        by_contra outside
        simp only [List.take_succ_cons, List.take_zero, List.mem_cons, List.not_mem_nil, or_false,
          not_or] at outside member
        have later := (member.resolve_left outside.1).resolve_left outside.2
        exact before.ne (few least (by simp) next (by simp) (leastBefore _ later)
          (nextBefore _ later))

/-- A network is one of the two with the smallest prefixes: it is that of an interface, and the
interfaces with smaller prefixes are on one network. -/
structure Leading (interfaces : List Interface) (subnet : SubnetPrefix) : Prop where
  listed : ∃ entry ∈ localScanInterfaces interfaces, subnetPrefix entry.2 = subnet
  few : ∀ first ∈ localScanInterfaces interfaces, ∀ second ∈ localScanInterfaces interfaces,
    subnetPrefix first.2 < subnet → subnetPrefix second.2 < subnet →
      subnetPrefix first.2 = subnetPrefix second.2

theorem mem_subnets {interfaces : List Interface} {subnet : SubnetPrefix} :
    subnet ∈ subnets interfaces ↔ Leading interfaces subnet := by
  rw [subnets, maxSubnets, mem_take_two (pairwise_sortDedup _)]
  simp only [mem_sortDedup, List.mem_map, forall_exists_index, and_imp, forall_apply_eq_imp_iff₂]
  exact ⟨fun known => ⟨known.1, known.2⟩, fun known => ⟨known.listed, known.few⟩⟩

/-- No eligible interface outside the two smallest networks has a smaller priority than all
interfaces of one of them. -/
def LeadsByPriority (interfaces : List Interface) : Prop :=
  ∀ entry ∈ localScanInterfaces interfaces, ¬ Leading interfaces (subnetPrefix entry.2) →
    ∀ subnet, Leading interfaces subnet → ∃ best ∈ localScanInterfaces interfaces,
      subnetPrefix best.2 = subnet ∧ interfacePriority best.1 ≤ interfacePriority entry.1

/-! ## Endpoints -/

/-- The endpoints of a scan are the hosts of the selected networks that are no addresses of the
interfaces considered, at one port. -/
theorem mem_endpoints {interfaces : List Interface} {endpoint : SocketAddr} :
    endpoint ∈ endpoints interfaces ↔ ∃ address, endpoint = .v4 address scanPort ∧
      subnetPrefix address ∈ subnets interfaces ∧ 1 ≤ (octet address 0).toNat ∧
      (octet address 0).toNat ≤ 254 ∧ address ∉ localAddresses interfaces := by
  simp only [endpoints, List.mem_map, List.mem_filter, List.mem_flatMap, mem_subnetHosts,
    Bool.not_eq_true', List.contains_eq_mem, decide_eq_false_iff_not]
  constructor
  · rintro ⟨address, ⟨⟨subnet, selected, rfl, first, last⟩, foreign⟩, rfl⟩
    exact ⟨address, rfl, selected, first, last, foreign⟩
  · rintro ⟨address, rfl, selected, first, last, foreign⟩
    exact ⟨address, ⟨⟨_, selected, rfl, first, last⟩, foreign⟩, rfl⟩

theorem nodup_endpoints (interfaces : List Interface) : (endpoints interfaces).Nodup := by
  have hosts : ((subnets interfaces).flatMap subnetHosts).Nodup := by
    rw [List.nodup_flatMap]
    refine ⟨fun subnet _ => nodup_subnetHosts subnet, ?_⟩
    refine (pairwise_subnets interfaces).imp fun {subnet other} before => ?_
    intro address inside insideOther
    exact before.ne ((mem_subnetHosts.mp inside).1.symm.trans (mem_subnetHosts.mp insideOther).1)
  refine List.Nodup.map ?_ (hosts.filter _)
  intro address other same
  exact (SocketAddr.v4.inj same).1

/-- An interface with a virtual name has no host address of the two smallest networks, unless an
eligible interface has it too. -/
def VirtualApart (interfaces : List Interface) : Prop :=
  ∀ candidate ∈ interfaces, isLikelyVirtual candidate.name = true →
    ∀ address, candidate.ip = .v4 address → Leading interfaces (subnetPrefix address) →
      1 ≤ (octet address 0).toNat → (octet address 0).toNat ≤ 254 →
        address ∈ localAddresses interfaces

/-- An interface without a virtual name in a selected network is eligible, since its address is as
private as that of its neighbour. -/
theorem mem_localAddresses {interfaces : List Interface} {candidate : Interface}
    (own : candidate ∈ interfaces) (named : isLikelyVirtual candidate.name = false)
    (addressed : candidate.ip = .v4 address) (leading : Leading interfaces (subnetPrefix address)) :
    address ∈ localAddresses interfaces := by
  obtain ⟨entry, listed, shared⟩ := leading.listed
  obtain ⟨neighbour, -, accepted⟩ := mem_localScanInterfaces.mp listed
  have owned : isPrivate address = true :=
    (isPrivate_of_subnetPrefix shared) ▸ (eligible_eq_some.mp accepted).2.1
  have found : eligible candidate = some (candidate.name, address) :=
    eligible_eq_some.mpr ⟨by rw [← addressed], owned, named⟩
  have considered : (candidate.name, address) ∈ localScanInterfaces interfaces :=
    mem_localScanInterfaces.mpr ⟨candidate, own, found⟩
  exact List.mem_map_of_mem (f := Prod.snd) considered

/-- The device itself is spared exactly if its virtual interfaces are apart. -/
theorem virtualApart_iff {interfaces : List Interface} :
    VirtualApart interfaces ↔ ∀ candidate ∈ interfaces, ∀ address port,
      candidate.ip = .v4 address → .v4 address port ∉ endpoints interfaces := by
  constructor
  · intro apart candidate own address port addressed inside
    obtain ⟨probed, same, selected, first, last, foreign⟩ := mem_endpoints.mp inside
    obtain ⟨rfl, -⟩ := SocketAddr.v4.inj same
    have leading := mem_subnets.mp selected
    cases named : isLikelyVirtual candidate.name with
    | true => exact foreign (apart candidate own named address addressed leading first last)
    | false => exact foreign (mem_localAddresses own named addressed leading)
  · intro spared candidate own named address addressed leading first last
    by_contra foreign
    exact spared candidate own address scanPort addressed
      (mem_endpoints.mpr ⟨address, rfl, mem_subnets.mpr leading, first, last, foreign⟩)

/-! ## Runs -/

/-- The endpoint that a call probes. -/
def Call.probe? : Call → Option SocketAddr
  | .spawnProbe endpoint _ _ => some endpoint
  | _ => none

section Runs

variable {World : Type}

/-- The endpoints that have been probed, in order. -/
def probed (moments : List (Program.Moment World Call.Reply)) : List SocketAddr :=
  moments.filterMap fun moment => moment.call.probe?

/-- The system lists these interfaces. -/
def Lists (interfaces : List Interface) : Program.Moment World Call.Reply → Prop
  | ⟨_, .getIfAddrs, listed⟩ => listed = .ok interfaces
  | _ => True

/-- The scan is not cancelled, and none has been started a short time before. -/
def Undisturbed : Program.Moment World Call.Reply → Prop
  | ⟨_, .lastElapsed, elapsed⟩ => elapsed.any (· < scanCooldown) = false
  | ⟨_, .loadCancelled, cancelled⟩ => cancelled = false
  | _ => True

/-- The contract of a scan: the system lists these interfaces. -/
def listing (interfaces : List Interface) : Program.Contract World Call.Reply :=
  ⟨fun _ _ => True, fun _ moment => Lists interfaces moment⟩

variable {interfaces : List Interface} {past : List (Program.Moment World Call.Reply)}

/-- What joining tasks leaves as it was. -/
theorem ensures_joinWhile (limit tasks : Nat) (progress : Progress) :
    Program.Ensures (listing interfaces)
      (fun now joined => past <+: now ∧ probed now = probed past ∧
        joined.attempted = progress.attempted)
      past (joinWhile limit tasks progress) := by
  induction tasks generalizing past progress with
  | zero => exact ⟨List.prefix_refl _, rfl, rfl⟩
  | succ tasks induction =>
    rw [joinWhile]
    split
    · refine ⟨trivial, fun world result _ => ?_⟩
      refine (induction (progress.join result)).mono fun now joined known => ?_
      obtain ⟨since, same, attempted⟩ := known
      refine ⟨(List.prefix_append _ _).trans since, ?_, ?_⟩
      · rw [same, probed, List.filterMap_append]
        exact List.append_nil _
      · rw [attempted]
        unfold Progress.join
        split <;> rfl
    · exact ⟨List.prefix_refl _, rfl, rfl⟩

/-- The loop probes the endpoints in order, and all of them unless it is cancelled. -/
theorem ensures_launch (targets : List SocketAddr) (progress : Progress) :
    Program.Ensures (listing interfaces)
      (fun now launched => past <+: now ∧ ∃ started, started <+: targets ∧
        probed now = probed past ++ started ∧
        launched.attempted = progress.attempted + started.length ∧
        ((∀ moment ∈ now, Undisturbed moment) → started = targets))
      past (launch targets progress) := by
  induction targets generalizing past progress with
  | nil =>
    refine ⟨List.prefix_refl _, [], List.prefix_refl _, ?_, rfl, fun _ => rfl⟩
    rw [List.append_nil]
  | cons endpoint targets induction =>
    refine ⟨trivial, fun world cancelled _ => ?_⟩
    cases cancelled with
    | true =>
      refine ⟨List.prefix_append _ _, [], List.nil_prefix, ?_, rfl, fun undisturbed => ?_⟩
      · rw [probed, List.filterMap_append]
        rfl
      · have stopped := undisturbed ⟨world, .loadCancelled, true⟩ List.mem_concat_self
        exact absurd stopped Bool.noConfusion
    | false =>
      change Program.Ensures _ _ _ (joinWhile scanConcurrency progress.tasks progress >>= _)
      refine Program.ensures_bind (ensures_joinWhile scanConcurrency progress.tasks progress)
        fun joinedAt joined known => ?_
      obtain ⟨since, same, attempted⟩ := known
      refine ⟨trivial, fun spawnWorld _ _ => ⟨trivial, fun sleepWorld _ _ => ?_⟩⟩
      refine (induction _).mono fun now launched known => ?_
      obtain ⟨later, started, beginning, total, count, complete⟩ := known
      have before : past <+: joinedAt := (List.prefix_append _ _).trans since
      refine ⟨before.trans ((List.prefix_append _ _).trans ((List.prefix_append _ _).trans later)),
        endpoint :: started, List.cons_prefix_cons.mpr ⟨rfl, beginning⟩, ?_, ?_, ?_⟩
      · have launchedFirst : probed ((joinedAt ++ [⟨spawnWorld, .spawnProbe endpoint .scan
            scanEndpointTimeout, ()⟩]) ++ [⟨sleepWorld, .sleep scanLaunchInterval, ()⟩]) =
            probed past ++ [endpoint] := by
          rw [probed, List.filterMap_append, List.filterMap_append, ← probed, same, probed,
            List.filterMap_append]
          simp [Call.probe?, probed]
        rw [total, launchedFirst, List.append_assoc, List.singleton_append]
      · have counted : launched.attempted = joined.attempted + 1 + started.length := count
        rw [counted, attempted, List.length_cons]
        omega
      · intro undisturbed
        rw [complete undisturbed]

/-- What a scan has done when it returns. -/
structure Scanned (interfaces : List Interface) (moments : List (Program.Moment World Call.Reply))
    (report : LanScanReport) : Prop where
  started : probed moments <+: endpoints interfaces
  attempted : report.attemptedEndpoints = (probed moments).length
  /-- All were probed unless the scan was cancelled or refused. -/
  complete : (∀ moment ∈ moments, Undisturbed moment) →
    probed moments = endpoints interfaces ∧ report.scannedSubnets = (subnets interfaces).length

/-- The networks of the interfaces are scanned. -/
theorem ensures_sweep (fresh : probed past = []) :
    Program.Ensures (listing interfaces) (fun now report => Scanned interfaces now report) past
      (sweep interfaces) := by
  refine Program.ensures_bind (ensures_launch (endpoints interfaces) {})
    fun launchedAt launched known => ?_
  obtain ⟨-, started, beginning, total, count, complete⟩ := known
  refine Program.ensures_bind (ensures_joinWhile 1 launched.tasks launched)
    fun now joined known => ?_
  obtain ⟨since, same, attempted⟩ := known
  have all : probed now = started := by rw [same, total, fresh, List.nil_append]
  refine ⟨all ▸ beginning, ?_, fun undisturbed => ⟨?_, rfl⟩⟩
  · change joined.attempted = _
    rw [attempted, count, all]
    exact Nat.zero_add _
  · rw [all]
    exact complete fun moment member => undisturbed moment (since.subset member)

/-- A scan on a system that lists the interfaces. -/
theorem ensures_scanLocalIpv4 (interfaces : List Interface) :
    Program.Ensures (listing interfaces)
      (fun (now : List (Program.Moment World Call.Reply)) result =>
        ∃ report, result = .ok report ∧ Scanned interfaces now report)
      [] scanLocalIpv4.run := by
  refine ⟨trivial, fun world elapsed _ => ?_⟩
  cases recent : elapsed.any (· < scanCooldown) with
  | true =>
    change Program.Ensures _ _ _ (if elapsed.any (· < scanCooldown) then _ else _)
    rw [if_pos recent]
    refine ⟨_, rfl, List.nil_prefix, rfl, fun undisturbed => ?_⟩
    have refused := undisturbed ⟨world, .lastElapsed, elapsed⟩ List.mem_cons_self
    exact absurd (recent.symm.trans refused) Bool.noConfusion
  | false =>
    change Program.Ensures _ _ _ (if elapsed.any (· < scanCooldown) then _ else _)
    rw [if_neg (by rw [recent]; exact Bool.noConfusion)]
    refine ⟨trivial, fun _ _ _ => ⟨trivial, fun _ _ _ => ⟨trivial, fun _ listed relied => ?_⟩⟩⟩
    obtain rfl : listed = .ok interfaces := relied
    change Program.Ensures _ _ _ (Except.ok <$> sweep interfaces)
    refine Program.ensures_map ((ensures_sweep rfl).mono fun now report known => ?_)
    exact ⟨report, rfl, known⟩

/-- The replies to a scan that nothing disturbs. -/
def quietReply (interfaces : List Interface) : (call : Call) → call.Reply
  | .lastElapsed => none
  | .loadCancelled => false
  | .getIfAddrs => .ok interfaces
  | .joinNext => none
  | .setStarted | .storeCancelled _ | .spawnProbe _ _ _ | .sleep _ => ()

/-- A scan that nothing disturbs probes every endpoint. -/
theorem exists_undisturbed (world : World) (interfaces : List Interface) :
    ∃ (moments : List (Program.Moment World Call.Reply)) (result : _),
      Program.Returns scanLocalIpv4.run moments result ∧
      (∀ moment ∈ moments, Lists interfaces moment) ∧ probed moments = endpoints interfaces := by
  obtain ⟨moments, result, returns, quiet⟩ :=
    Program.exists_returns world (quietReply interfaces) scanLocalIpv4.run
  have listed : ∀ moment ∈ moments, Lists interfaces moment := by
    intro moment member
    obtain ⟨call, rfl⟩ := quiet moment member
    cases call <;> trivial
  have undisturbed : ∀ moment ∈ moments, Undisturbed moment := by
    intro moment member
    obtain ⟨call, rfl⟩ := quiet moment member
    cases call <;> trivial
  obtain ⟨report, -, scanned⟩ := (ensures_scanLocalIpv4 interfaces).returns returns
    fun _ moment begun => listed moment (begun.subset (by simp))
  exact ⟨moments, result, returns, listed, (scanned.complete undisturbed).1⟩

/-- A scan has searched the best networks, without the device itself. -/
structure Searched (interfaces : List Interface)
    (moments : List (Program.Moment World Call.Reply)) : Prop where
  two : (subnets interfaces).length ≤ 2
  known : ∀ subnet ∈ subnets interfaces,
    ∃ entry ∈ localScanInterfaces interfaces, subnetPrefix entry.2 = subnet
  /-- No interface that is left out has a smaller priority than the best one of a selected
  network. -/
  best : ∀ entry ∈ localScanInterfaces interfaces, subnetPrefix entry.2 ∉ subnets interfaces →
    ∀ subnet ∈ subnets interfaces, ∃ best ∈ localScanInterfaces interfaces,
      subnetPrefix best.2 = subnet ∧ interfacePriority best.1 ≤ interfacePriority entry.1
  distinct : (probed moments).Nodup
  foreign : ∀ candidate ∈ interfaces, ∀ address port, candidate.ip = .v4 address →
    .v4 address port ∉ probed moments
  hosts : ∀ endpoint ∈ probed moments, ∃ address, endpoint = .v4 address scanPort ∧
    subnetPrefix address ∈ subnets interfaces ∧ 1 ≤ (octet address 0).toNat ∧
      (octet address 0).toNat ≤ 254
  /-- All other hosts of these networks are probed, unless the scan is disturbed. -/
  complete : (∀ moment ∈ moments, Undisturbed moment) → ∀ address,
    subnetPrefix address ∈ subnets interfaces → 1 ≤ (octet address 0).toNat →
      (octet address 0).toNat ≤ 254 → (∀ candidate ∈ interfaces, candidate.ip ≠ .v4 address) →
        .v4 address scanPort ∈ probed moments

/-- Every scan of a system that lists the interfaces searches the best networks without the device
itself, exactly if the eligible interfaces of the two smallest networks have the best priorities and
no virtual interface has an address of its own there. -/
theorem scan_selects_by_priority (world : World) (interfaces : List Interface) :
    (∀ (moments : List (Program.Moment World Call.Reply)) (result : _),
      Program.Returns scanLocalIpv4.run moments result →
      (∀ moment ∈ moments, Lists interfaces moment) → Searched interfaces moments) ↔
    LeadsByPriority interfaces ∧ VirtualApart interfaces := by
  constructor
  · intro searches
    obtain ⟨moments, result, returns, listed, all⟩ := exists_undisturbed world interfaces
    have searched := searches moments result returns listed
    constructor
    · intro entry considered left subnet leading
      exact searched.best entry considered (fun selected => left (mem_subnets.mp selected)) subnet
        (mem_subnets.mpr leading)
    · have foreign := searched.foreign
      rw [all] at foreign
      exact virtualApart_iff.mpr foreign
  · rintro ⟨ordered, apart⟩ moments result returns listed
    obtain ⟨report, -, scanned⟩ := (ensures_scanLocalIpv4 interfaces).returns returns
      fun _ moment begun => listed moment (begun.subset (by simp))
    have inside : ∀ endpoint ∈ probed moments, endpoint ∈ endpoints interfaces :=
      fun endpoint member => scanned.started.subset member
    constructor
    · exact List.length_take_le _ _
    · exact fun subnet selected => (mem_subnets.mp selected).listed
    · intro entry considered left subnet selected
      exact ordered entry considered (fun leading => left (mem_subnets.mpr leading)) subnet
        (mem_subnets.mp selected)
    · exact (nodup_endpoints interfaces).sublist scanned.started.sublist
    · intro candidate own address port addressed member
      exact virtualApart_iff.mp apart candidate own address port addressed (inside _ member)
    · intro endpoint member
      obtain ⟨address, same, selected, first, last, -⟩ := mem_endpoints.mp (inside _ member)
      exact ⟨address, same, selected, first, last⟩
    · intro undisturbed address selected first last foreign
      rw [(scanned.complete undisturbed).1]
      refine mem_endpoints.mpr ⟨address, rfl, selected, first, last, fun own => ?_⟩
      obtain ⟨entry, considered, rfl⟩ := List.mem_map.mp own
      obtain ⟨candidate, member, accepted⟩ := mem_localScanInterfaces.mp considered
      exact foreign candidate member (by rw [(eligible_eq_some.mp accepted).1])

end Runs

/-- A cable in a network with the largest prefix. -/
def modems : List Interface :=
  [⟨"eth0", .v4 (ipv4 192 168 1 5)⟩, ⟨"ppp0", .v4 (ipv4 10 0 0 1)⟩, ⟨"ppp1", .v4 (ipv4 10 0 1 1)⟩]

/-- The network of the cable is left out for those of the modems. And where a container is in the
network of the cable, the address of the device in the container's network is probed. -/
theorem scan_leaves_out_priority :
    (∃ entry ∈ localScanInterfaces modems, subnetPrefix entry.2 ∉ subnets modems ∧
      ∃ subnet ∈ subnets modems, ∀ other ∈ localScanInterfaces modems,
        subnetPrefix other.2 = subnet → interfacePriority entry.1 < interfacePriority other.1) ∧
    .v4 (ipv4 172 17 0 1) scanPort ∈
      endpoints [⟨"eth0", .v4 (ipv4 172 17 0 5)⟩, ⟨"docker0", .v4 (ipv4 172 17 0 1)⟩] := by
  constructor
  · decide +kernel
  · refine mem_endpoints.mpr ⟨_, rfl, ?_⟩
    decide +kernel

end ArcRelay.Scan
