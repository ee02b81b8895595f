import ArcRelay.Lib.Conduct
import ArcRelay.Visibility

/-!
# Hidden means not advertised

Any number of `set_discoverable` and `update_metadata` calls, interleaved at every
load, store and daemon call. The flags and the registration agree once all calls
have returned if no two `set_discoverable` of different values are under way at
the same time and nothing is registered while the device is hidden. An
`update_metadata` that has seen the flag of the discovery service set can break the
second: it registers the service again after it was hidden.
-/

namespace ArcRelay.Visibility

open System (momentsOf mem_momentsOf)

/-- A step as a call remembers it. -/
abbrev Moment := Program.Moment World Call.Reply

/-- A step as the history of all calls remembers it. -/
abbrev Record := Entry Call.Reply World Operation

/-! ## How far a `set_discoverable` is -/

/-- The step stores this value in `discoverable`. -/
def Call.intends (discoverable : Bool) : Call → Bool
  | .storeDiscoverable value => value == discoverable
  | _ => false

/-- The step is the last one of a `set_discoverable`: the flag of the service is seen to have the
value already, or is given it. -/
def finishes (discoverable : Bool) : Moment → Bool
  | ⟨_, .loadPublished, published⟩ => published == discoverable
  | ⟨_, .storePublished published, _⟩ => published == discoverable
  | _ => false

/-- The daemon has been brought in line with the value. -/
def effects (discoverable : Bool) : Moment → Bool
  | ⟨_, .register _, .ok ()⟩ => discoverable
  | ⟨_, .unregister, .ok ()⟩ => !discoverable
  | _ => false

/-- The endpoint has no port, or the daemon refuses. -/
def falters : Moment → Bool
  | ⟨_, .localPort, .ok port⟩ => port == 0
  | ⟨_, .localPort, .error _⟩ => true
  | ⟨_, .register _, .error _⟩ => true
  | ⟨_, .unregister, .error _⟩ => true
  | _ => false

/-- A `set_discoverable` of this value has stored it and is not over. -/
def Underway (past : List Moment) (discoverable : Bool) : Prop :=
  (∃ moment ∈ past, moment.call.intends discoverable = true) ∧
    ∀ moment ∈ past, finishes discoverable moment = false

instance (past : List Moment) (discoverable : Bool) : Decidable (Underway past discoverable) :=
  inferInstanceAs (Decidable (_ ∧ _))

/-- It has brought the daemon in line. -/
def Effected (past : List Moment) (discoverable : Bool) : Prop :=
  ∃ moment ∈ past, effects discoverable moment = true

variable {moment : Moment} {past : List Moment} {discoverable : Bool}

/-- A call is under way if one of its steps has set the flag and none has finished. -/
theorem underway_concat :
    Underway (past ++ [moment]) discoverable ↔
      ((∃ earlier ∈ past, earlier.call.intends discoverable = true) ∨
        moment.call.intends discoverable = true) ∧
      (∀ earlier ∈ past, finishes discoverable earlier = false) ∧
        finishes discoverable moment = false := by
  simp only [Underway, List.mem_append, List.mem_singleton, or_and_right, exists_or,
    exists_eq_left, or_imp, forall_and, forall_eq]

/-- A step that stores no flag and ends nothing leaves every call as far as it was. -/
theorem underway_concat_iff (silent : moment.call.intends discoverable = false) :
    Underway (past ++ [moment]) discoverable ↔
      Underway past discoverable ∧ finishes discoverable moment = false := by
  rw [underway_concat, silent, Underway]
  simp only [Bool.false_eq_true, or_false, and_assoc]

/-- The service is brought in line by an earlier step or the last one. -/
theorem effected_concat :
    Effected (past ++ [moment]) discoverable ↔
      Effected past discoverable ∨ effects discoverable moment = true := by
  simp only [Effected, List.mem_append, List.mem_singleton, or_and_right, exists_or, exists_eq_left]

/-! ## What the calls guarantee -/

/-- What a call guarantees of a step, given those it has made. -/
def Proper (operation : Operation) (past : List Moment) : Call → Prop
  | .storeDiscoverable value => operation = .setDiscoverable value ∧ past = []
  | .loadPublished => (∃ value, operation = .setDiscoverable value ∧ Underway past value) ∨
      ∀ value, ¬ Underway past value
  | .register _ => (operation = .setDiscoverable true ∧ Underway past true) ∨
      ∀ value, ¬ Underway past value
  | .unregister => operation = .setDiscoverable false ∧ Underway past false
  | .storePublished value =>
      operation = .setDiscoverable value ∧ Underway past value ∧ Effected past value
  | .readMetadata | .writeMetadata _ | .localPort => True

/-- A `set_discoverable` of this value is over, or something has failed. -/
def Over (past : List Moment) (value : Bool) : Prop :=
  ¬ Underway past value ∨ ∃ moment ∈ past, falters moment = true

/-- What is guaranteed of every step. -/
abbrev contract (operation : Operation) : Program.Contract World Call.Reply :=
  ⟨Proper operation, fun _ _ => True⟩

variable (platform : Platform) (multicast : Multicast) (identity : LocalIdentity)

/-- The metadata that a step has read can be published, on every port but zero. -/
def Publishable : Moment → Prop
  | ⟨_, .readMetadata, metadata⟩ =>
    ∀ port, port ≠ 0 → ∃ info, serviceInfo platform multicast identity metadata port = .ok info
  | _ => True

/-- A `set_discoverable` that returns is over, or has read metadata that cannot be published. -/
def Settles (operation : Operation) (past : List Moment) (_ : Except NetworkError Unit) : Prop :=
  ∀ value, operation = .setDiscoverable value →
    Over past value ∨ ∃ moment ∈ past, ¬ Publishable platform multicast identity moment

variable {value : Bool}

theorem over_of_falters (fails : falters moment = true) : Over (past ++ [moment]) value :=
  Or.inr ⟨moment, by simp, fails⟩

/-- The last step of a `set_discoverable` ends it. -/
theorem over_of_finishes (last : finishes value moment = true) : Over (past ++ [moment]) value := by
  left
  rintro ⟨-, none⟩
  rw [none moment (by simp)] at last
  cases last

/-- Once the daemon is in line, the flag of the service is stored. -/
theorem ensures_storePublished (underway : Underway past value) (effected : Effected past value) :
    (step (.storePublished value)).run.Ensures (contract (.setDiscoverable value))
      (fun now _ => Over now value) past :=
  ⟨⟨rfl, underway, effected⟩, fun _ _ _ => over_of_finishes (by simp [finishes])⟩

/-- The daemon call of a `set_discoverable` and the store of the flag after it. -/
theorem ensures_register (underway : Underway past value) {metadata : DeviceMetadata}
    {port : UInt16} {unpublished : Prop}
    (unbuilt : ∀ error, serviceInfo platform multicast identity metadata port = .error error →
      (∃ moment ∈ past, falters moment = true) ∨ unpublished) :
    (do register platform multicast identity metadata port value
        step (.storePublished value) : Action Unit).run.Ensures
      (contract (.setDiscoverable value)) (fun now _ => Over now value ∨ unpublished) past := by
  have stores : ∀ {now}, Underway now value → Effected now value →
      (step (.storePublished value)).run.Ensures (contract (.setDiscoverable value))
        (fun now _ => Over now value ∨ unpublished) now := fun underway effected =>
    (ensures_storePublished underway effected).mono fun _ _ => Or.inl
  cases value with
  | true =>
    cases built : serviceInfo platform multicast identity metadata port with
    | error error =>
      simp only [register, announce, built]
      exact (unbuilt error built).imp_left Or.inr
    | ok info =>
      simp only [register, announce, built]
      refine ⟨Or.inl ⟨rfl, underway⟩, fun world reply _ => ?_⟩
      cases reply with
      | error error => exact Or.inl (over_of_falters rfl)
      | ok done =>
        exact stores ((underway_concat_iff rfl).mpr ⟨underway, rfl⟩)
          (effected_concat.mpr (Or.inr rfl))
  | false =>
    refine ⟨⟨rfl, underway⟩, fun world reply _ => ?_⟩
    cases reply with
    | error error => exact Or.inl (over_of_falters rfl)
    | ok done =>
      exact stores ((underway_concat_iff rfl).mpr ⟨underway, rfl⟩)
        (effected_concat.mpr (Or.inr rfl))

/-- `set_local_published` ends the `set_discoverable` that calls it. -/
theorem ensures_setLocalPublished (underway : Underway past value) {metadata : DeviceMetadata}
    {port : UInt16} {unpublished : Prop}
    (unbuilt : ∀ error, serviceInfo platform multicast identity metadata port = .error error →
      (∃ moment ∈ past, falters moment = true) ∨ unpublished) :
    (setLocalPublished platform multicast identity metadata port value).run.Ensures
      (contract (.setDiscoverable value)) (fun now _ => Over now value ∨ unpublished) past := by
  refine ⟨Or.inl ⟨value, rfl, underway⟩, fun world previous _ => ?_⟩
  have further : (Async.whenever (previous ≠ value) do
      register platform multicast identity metadata port value
      step (.storePublished value) : Action Unit).run.Ensures (contract (.setDiscoverable value))
        (fun now _ => Over now value ∨ unpublished)
        (past ++ [⟨world, .loadPublished, previous⟩]) := by
    by_cases same : previous = value
    · rw [Async.whenever, if_neg (not_not.mpr same)]
      exact Or.inl (over_of_finishes (by simp [finishes, same]))
    · rw [Async.whenever, if_pos same]
      refine ensures_register platform multicast identity
        ((underway_concat_iff rfl).mpr ⟨underway, by simp [finishes, same]⟩) fun error failed => ?_
      refine (unbuilt error failed).imp_left ?_
      rintro ⟨moment, member, fails⟩
      exact ⟨moment, List.mem_append_left _ member, fails⟩
  exact further

/-- `set_discoverable` conducts itself well, and is over when it returns if the metadata could be
published. -/
theorem ensures_setDiscoverable (value : Bool) :
    (setDiscoverable platform multicast identity value).run.Ensures
      (contract (.setDiscoverable value)) (fun now _ => Over now value ∨
        ∃ moment ∈ now, ¬ Publishable platform multicast identity moment) [] := by
  refine ⟨⟨rfl, rfl⟩, fun first _ _ => ⟨trivial, fun second metadata _ =>
    ⟨trivial, fun third port _ => ?_⟩⟩⟩
  let read : Moment := ⟨second, .readMetadata, metadata⟩
  let past : List Moment := [⟨first, .storeDiscoverable value, ()⟩, read, ⟨third, .localPort, port⟩]
  have underway : Underway past value :=
    ⟨⟨_, List.mem_cons_self, by simp [Call.intends]⟩, by simp [finishes, past, read]⟩
  have unbuilt : ∀ error, serviceInfo platform multicast identity metadata
      (port.toOption.getD 0) = .error error → (∃ moment ∈ past, falters moment = true) ∨
        ¬ Publishable platform multicast identity read := by
    intro error failed
    by_cases zero : port.toOption.getD 0 = 0
    · refine Or.inl ⟨⟨third, .localPort, port⟩, by simp [past], ?_⟩
      cases port with
      | error error => rfl
      | ok port => simpa [falters, Except.toOption] using zero
    · refine Or.inr fun publishable => ?_
      obtain ⟨info, made⟩ := publishable _ zero
      rw [failed] at made
      cases made
  have sets := (ensures_setLocalPublished platform multicast identity underway unbuilt).since
  refine Async.ensures_discard (sets.mono fun now _ known => known.1.imp_right fun unread => ?_)
  exact ⟨read, known.2.subset (by simp [past]), unread⟩

/-- `update_metadata` conducts itself well. -/
theorem ensures_updateMetadata (metadata : DeviceMetadata) :
    (updateMetadata platform multicast identity metadata).run.Ensures
      (contract (.updateMetadata metadata)) (fun _ _ => True) [] := by
  have never : ∀ (past : List Moment), (∀ moment ∈ past, ∀ value,
      moment.call.intends value = false) → ∀ value, ¬ Underway past value := by
    rintro past none value ⟨⟨moment, member, intends⟩, -⟩
    rw [none moment member value] at intends
    cases intends
  refine ⟨trivial, fun first port _ => ?_⟩
  cases port with
  | error error => exact trivial
  | ok port =>
    refine ⟨Or.inr (never _ (by simp [Call.intends])), fun second published _ => ?_⟩
    cases published with
    | false => exact ⟨trivial, fun _ _ _ => trivial⟩
    | true =>
      cases built : serviceInfo platform multicast identity metadata port with
      | error error =>
        simp only [Async.whenever, announce, built]
        exact trivial
      | ok info =>
        simp only [Async.whenever, announce, built]
        refine ⟨Or.inr (never _ (by simp [Call.intends])), fun third reply _ => ?_⟩
        cases reply with
        | error error => exact trivial
        | ok done => exact ⟨trivial, fun _ _ _ => trivial⟩

/-- The calls conduct themselves well. -/
def conduct : Conduct (system platform multicast identity) where
  guarantee := Proper
  post := Settles platform multicast identity
  programs
    | .updateMetadata metadata =>
      (ensures_updateMetadata platform multicast identity metadata).mono fun _ _ _ => nofun
    | .setDiscoverable value =>
      (ensures_setDiscoverable platform multicast identity value).mono
        fun _ _ ended => by
          rintro _ ⟨⟩
          exact ended

/-! ## What the flags and the daemon say -/

/-- What holds between the flags, the daemon and the calls under way. -/
structure Coherent (history : List Record) (world : World) : Prop where
  /-- A `set_discoverable` under way has the value of the flag. -/
  intended : ∀ index value, Underway (momentsOf history index) value →
    world.discoverable = value
  /-- Where the two flags agree, the daemon agrees with them. -/
  agreed : world.localPublished = world.discoverable →
    world.registered.isSome = world.discoverable
  /-- Once it has been brought in line, the daemon stays so until the call is over. -/
  effected : ∀ index value, Underway (momentsOf history index) value →
    Effected (momentsOf history index) value → world.registered.isSome = value
  /-- With no `set_discoverable` under way the flags agree. -/
  settled : (∀ index value, ¬ Underway (momentsOf history index) value) →
    world.localPublished = world.discoverable
  sound : ∀ entry ∈ history, falters entry.moment = false

/-- What is required of a step: it does not fail, a flag is stored only while no `set_discoverable`
of the other value is under way, and the service is registered only while it is registered already
or the device is discoverable. -/
def Admissible (history : List Record) (moment : Moment) : Prop :=
  falters moment = false ∧ match moment.call with
    | .storeDiscoverable value => ∀ entry ∈ history, ∀ other,
      Underway (momentsOf history entry.index) other → other = value
    | .register _ => moment.world.registered.isSome = true ∨ moment.world.discoverable = true
    | _ => True

instance (history : List Record) (moment : Moment) : Decidable (Admissible history moment) := by
  unfold Admissible
  obtain ⟨world, call, reply⟩ := moment
  cases call <;> infer_instance

variable {history : List Record} {index : Nat}

theorem entry_of_underway (underway : Underway (momentsOf history index) value) :
    ∃ entry ∈ history, entry.index = index ∧ entry.moment.call.intends value = true := by
  obtain ⟨⟨moment, member, intends⟩, -⟩ := underway
  obtain ⟨entry, recorded, own, rfl⟩ := mem_momentsOf.mp member
  exact ⟨entry, recorded, own, intends⟩

variable {entry : Record}

theorem underway_step (silent : ∀ other, entry.moment.call.intends other = false)
    (underway : Underway (momentsOf (history ++ [entry]) index) value) :
    Underway (momentsOf history index) value ∧
      (entry.index = index → finishes value entry.moment = false) := by
  rw [System.momentsOf_concat] at underway
  split at underway
  · obtain ⟨before, unfinished⟩ := (underway_concat_iff (silent value)).mp underway
    exact ⟨before, fun _ => unfinished⟩
  · rename_i other
    rw [List.append_nil] at underway
    exact ⟨underway, fun own => absurd own other⟩

/-- A step that stores no flag leaves the calls it does not finish under way. -/
theorem underway_kept (silent : ∀ other, entry.moment.call.intends other = false)
    (underway : Underway (momentsOf history index) value)
    (unfinished : entry.index = index → finishes value entry.moment = false) :
    Underway (momentsOf (history ++ [entry]) index) value := by
  rw [System.momentsOf_concat]
  split
  · rename_i own
    exact (underway_concat_iff (silent value)).mpr ⟨underway, unfinished own⟩
  · rw [List.append_nil]
    exact underway

/-- What has taken effect after a step had before, or is the step's doing. -/
theorem effected_step (effected : Effected (momentsOf (history ++ [entry]) index) value) :
    Effected (momentsOf history index) value ∨
      (entry.index = index ∧ effects value entry.moment = true) := by
  rw [System.momentsOf_concat] at effected
  split at effected
  · rename_i own
    rcases effected_concat.mp effected with before | now
    · exact Or.inl before
    · exact Or.inr ⟨own, now⟩
  · rw [List.append_nil] at effected
    exact Or.inl effected

theorem sound_concat (sound : ∀ earlier ∈ history, falters earlier.moment = false)
    (succeeds : falters entry.moment = false) :
    ∀ earlier ∈ history ++ [entry], falters earlier.moment = false := by
  intro earlier member
  rcases List.mem_concat_iff.mp member with before | rfl
  · exact sound earlier before
  · exact succeeds

variable {world : World}

/-- A step that touches neither the flags nor the daemon and ends no call. -/
theorem Coherent.quiet {after : World} (coherent : Coherent history world)
    (silent : ∀ other, entry.moment.call.intends other = false)
    (unfinished : ∀ value, finishes value entry.moment = false)
    (ineffective : ∀ value, effects value entry.moment = false)
    (succeeds : falters entry.moment = false)
    (discoverable : after.discoverable = world.discoverable)
    (published : after.localPublished = world.localPublished)
    (registered : after.registered = world.registered) : Coherent (history ++ [entry]) after where
  intended index value underway :=
    discoverable.trans (coherent.intended index value (underway_step silent underway).1)
  agreed same := by
    rw [discoverable, published] at same
    rw [discoverable, registered]
    exact coherent.agreed same
  effected index value underway effected := by
    rw [registered]
    rcases effected_step effected with before | ⟨-, now⟩
    · exact coherent.effected index value (underway_step silent underway).1 before
    · rw [ineffective value] at now
      cases now
  settled none := by
    rw [discoverable, published]
    refine coherent.settled fun index value underway => ?_
    exact none index value (underway_kept silent underway fun _ => unfinished value)
  sound := sound_concat coherent.sound succeeds

variable {operation : Operation}

/-- A `set_discoverable` stores its flag while none of the other value is under way. -/
theorem Coherent.storeDiscoverable (coherent : Coherent history world)
    (first : momentsOf history index = [])
    (alone : ∀ entry ∈ history, ∀ other,
      Underway (momentsOf history entry.index) other → other = value) :
    Coherent (history ++ [⟨index, operation, ⟨world, .storeDiscoverable value, ()⟩⟩])
      { world with discoverable := value } := by
  have others : ∀ other flag, Underway (momentsOf history other) flag → flag = value := by
    intro other flag underway
    obtain ⟨entry, member, rfl, -⟩ := entry_of_underway underway
    exact alone entry member flag underway
  have started : Underway (momentsOf (history ++
      [⟨index, operation, ⟨world, .storeDiscoverable value, ()⟩⟩]) index) value := by
    rw [System.momentsOf_concat, if_pos rfl, first]
    exact ⟨⟨_, List.mem_cons_self, by simp [Call.intends]⟩, by simp [finishes]⟩
  have later : ∀ other flag, Underway (momentsOf (history ++
      [⟨index, operation, ⟨world, .storeDiscoverable value, ()⟩⟩]) other) flag →
        flag = value ∧ (Underway (momentsOf history other) flag ∨ other = index) := by
    intro other flag underway
    rw [System.momentsOf_concat] at underway
    split at underway
    · rename_i own
      have own : index = other := own
      subst own
      rw [first] at underway
      obtain ⟨⟨moment, member, intends⟩, -⟩ := underway
      obtain rfl := List.mem_singleton.mp member
      exact ⟨(beq_iff_eq.mp intends).symm, Or.inr rfl⟩
    · rw [List.append_nil] at underway
      exact ⟨others other flag underway, Or.inl underway⟩
  refine ⟨fun other flag underway => (later other flag underway).1.symm, fun same => ?_,
    fun other flag underway effected => ?_, fun none => absurd started (none index value),
    sound_concat coherent.sound rfl⟩
  · have same : world.localPublished = value := same
    by_cases kept : world.discoverable = value
    · have agreed := coherent.agreed (same.trans kept.symm)
      rwa [kept] at agreed
    · -- no call is under way, so the flags agreed, and the new value is the other one
      have agreed := coherent.settled fun other flag underway =>
        kept ((coherent.intended other flag underway).trans (others other flag underway))
      exact absurd (agreed.symm.trans same) kept
  · obtain ⟨rfl, before | rfl⟩ := later other flag underway
    · rcases effected_step effected with effected | ⟨-, now⟩
      · exact coherent.effected other flag before effected
      · cases now
    · rcases effected_step effected with effected | ⟨-, now⟩
      · rw [first] at effected
        obtain ⟨moment, member, -⟩ := effected
        cases member
      · cases now

/-- A call reads the flag of the service. -/
theorem Coherent.loadPublished (coherent : Coherent history world)
    (proper : Proper operation (momentsOf history index) .loadPublished) :
    Coherent (history ++ [⟨index, operation, ⟨world, .loadPublished, world.localPublished⟩⟩])
      world := by
  have silent : ∀ other, (Call.loadPublished).intends other = false := fun _ => rfl
  refine ⟨fun other value underway => ?_, coherent.agreed, fun other value underway effected => ?_,
    fun none => ?_, sound_concat coherent.sound rfl⟩
  · exact coherent.intended other value (underway_step silent underway).1
  · rcases effected_step effected with before | ⟨-, now⟩
    · exact coherent.effected other value (underway_step silent underway).1 before
    · cases now
  · rcases proper with ⟨value, -, underway⟩ | idle
    · -- the call is over only if the flag has its value
      by_cases seen : world.localPublished = value
      · exact seen.trans (coherent.intended index value underway).symm
      · exact absurd (underway_kept silent underway fun _ => by simpa [finishes] using seen)
          (none index value)
    · refine coherent.settled fun other value underway => ?_
      refine none other value (underway_kept silent underway fun own => ?_)
      have own : index = other := own
      subst own
      exact absurd underway (idle value)

/-- The daemon is brought in line by a `set_discoverable` under way. -/
theorem Coherent.effect (coherent : Coherent history world)
    (underway : Underway (momentsOf history index) value)
    (silent : ∀ other, entry.moment.call.intends other = false)
    (unfinished : ∀ other, finishes other entry.moment = false)
    (succeeds : falters entry.moment = false) {registered : Option ServiceInfo}
    (effective : registered.isSome = value) :
    Coherent (history ++ [entry]) { world with registered } := by
  have intended := coherent.intended index value underway
  refine ⟨fun other flag later => ?_, fun _ => effective.trans intended.symm,
    fun other flag later _ => ?_, fun none => ?_, sound_concat coherent.sound succeeds⟩
  · exact coherent.intended other flag (underway_step silent later).1
  · exact effective.trans
      (intended.symm.trans (coherent.intended other flag (underway_step silent later).1))
  · exact absurd (underway_kept silent underway fun _ => unfinished value) (none index value)

/-- An `update_metadata` registers while the service is registered or the device discoverable. -/
theorem Coherent.renew (coherent : Coherent history world) {info : ServiceInfo}
    (idle : ∀ value, ¬ Underway (momentsOf history index) value)
    (wanted : world.registered.isSome = true ∨ world.discoverable = true) :
    Coherent (history ++ [⟨index, operation, ⟨world, .register info, .ok ()⟩⟩])
      { world with registered := some info } := by
  have silent : ∀ other, (Call.register info).intends other = false := fun _ => rfl
  refine ⟨fun other value later => ?_, fun same => ?_, fun other value later effected => ?_,
    fun none => ?_, sound_concat coherent.sound rfl⟩
  · exact coherent.intended other value (underway_step silent later).1
  · rcases wanted with registered | discoverable
    · exact registered.symm.trans (coherent.agreed same)
    · exact discoverable.symm
  · have before := (underway_step silent later).1
    rcases effected_step effected with earlier | ⟨own, -⟩
    · rcases wanted with registered | discoverable
      · exact registered.symm.trans (coherent.effected other value before earlier)
      · exact discoverable.symm.trans (coherent.intended other value before)
    · have own : index = other := own
      subst own
      exact absurd before (idle value)
  · refine coherent.settled fun other value underway => ?_
    exact none other value (underway_kept silent underway fun _ => rfl)

/-- A `set_discoverable` stores the flag of the service once the daemon is in line. -/
theorem Coherent.storePublished (coherent : Coherent history world)
    (underway : Underway (momentsOf history index) value)
    (effected : Effected (momentsOf history index) value) :
    Coherent (history ++ [⟨index, operation, ⟨world, .storePublished value, ()⟩⟩])
      { world with localPublished := value } := by
  have silent : ∀ other, (Call.storePublished value).intends other = false := fun _ => rfl
  have intended := coherent.intended index value underway
  refine ⟨fun other flag later => ?_, fun _ => ?_, fun other flag later effected => ?_,
    fun _ => intended.symm, sound_concat coherent.sound rfl⟩
  · exact coherent.intended other flag (underway_step silent later).1
  · exact (coherent.effected index value underway effected).trans intended.symm
  · rcases effected_step effected with before | ⟨-, now⟩
    · exact coherent.effected other flag (underway_step silent later).1 before
    · cases now

/-- Every admissible step keeps the flags and the daemon coherent. -/
theorem coherent_call {after : World} {call : Call} {proposal reply : call.Reply}
    (coherent : Coherent history world) (proper : Proper operation (momentsOf history index) call)
    (answered : handle world call proposal = some (reply, after))
    (admissible : Admissible history ⟨world, call, reply⟩) :
    Coherent (history ++ [⟨index, operation, ⟨world, call, reply⟩⟩]) after := by
  obtain ⟨succeeds, admitted⟩ := admissible
  cases call with
  | storeDiscoverable value =>
    cases answered
    exact coherent.storeDiscoverable proper.2 admitted
  | readMetadata =>
    cases answered
    exact coherent.quiet (fun _ => rfl) (fun _ => rfl) (fun _ => rfl) rfl rfl rfl rfl
  | writeMetadata metadata =>
    cases answered
    exact coherent.quiet (fun _ => rfl) (fun _ => rfl) (fun _ => rfl) rfl rfl rfl rfl
  | localPort =>
    cases answered
    exact coherent.quiet (fun _ => rfl) (fun _ => rfl) (fun _ => rfl) succeeds rfl rfl rfl
  | loadPublished =>
    cases answered
    exact coherent.loadPublished proper
  | storePublished value =>
    cases answered
    exact coherent.storePublished proper.2.1 proper.2.2
  | register info =>
    cases proposal with
    | error error =>
      cases answered
      cases succeeds
    | ok done =>
      cases answered
      rcases proper with ⟨-, underway⟩ | idle
      · exact coherent.effect underway (fun _ => rfl) (fun _ => rfl) rfl rfl
      · exact coherent.renew idle admitted
  | unregister =>
    cases proposal with
    | error error =>
      cases answered
      cases succeeds
    | ok done =>
      cases answered
      exact coherent.effect proper.2 (fun _ => rfl) (fun _ => rfl) rfl rfl

/-! ## Runs -/

theorem not_underway_nil (value : Bool) : ¬ Underway [] value := by
  rintro ⟨⟨moment, member, -⟩, -⟩
  cases member

theorem coherent_bound (info : ServiceInfo) (metadata : DeviceMetadata) :
    Coherent [] (World.bound info metadata) :=
  ⟨fun _ value underway => absurd underway (not_underway_nil value), fun _ => rfl,
    fun _ value underway => absurd underway (not_underway_nil value), fun _ => rfl, by simp⟩

/-- Once all calls have returned, the service is registered exactly when the device is
discoverable. -/
def Hidden (pool : Pool Call.Reply (Except NetworkError Unit) World Operation) : Prop :=
  (∀ job ∈ pool.jobs, ∃ value, job.rest = .done value) →
    pool.world.registered.isSome = pool.world.discoverable

/-- In a coherent pool whose calls have all returned, nothing is under way. -/
theorem hidden_of_coherent {pool : Pool Call.Reply (Except NetworkError Unit) World Operation}
    (kept : (conduct platform multicast identity).Kept pool)
    (coherent : Coherent pool.history pool.world)
    (publishable : ∀ entry ∈ pool.history, Publishable platform multicast identity entry.moment) :
    Hidden pool := by
  intro returned
  refine coherent.agreed (coherent.settled fun index value underway => ?_)
  obtain ⟨entry, member, rfl, intends⟩ := entry_of_underway underway
  obtain ⟨job, found, same⟩ := kept.recorded.known entry member
  obtain ⟨result, done⟩ := returned job (List.mem_of_getElem? found)
  -- the call that stored the flag is a `set_discoverable` of this value
  obtain ⟨before, later, split⟩ := List.append_of_mem member
  have proper := kept.entries before entry later split
  have operation : job.operation = .setDiscoverable value := by
    rw [same]
    obtain ⟨index, operation, world, call, reply⟩ := entry
    cases call with
    | storeDiscoverable flag =>
      obtain rfl : flag = value := beq_iff_eq.mp intends
      exact proper.1
    | _ => cases intends
  have outcome : System.outcome pool entry.index = some (.setDiscoverable value, result) := by
    simp only [System.outcome, found, done, operation]
  rcases kept.achieved outcome value rfl with
    (ended | ⟨moment, past, fails⟩) | ⟨moment, past, fails⟩
  · exact ended underway
  · obtain ⟨other, recorded, -, rfl⟩ := mem_momentsOf.mp past
    rw [coherent.sound other recorded] at fails
    cases fails
  · obtain ⟨other, recorded, -, rfl⟩ := mem_momentsOf.mp past
    exact fails (publishable other recorded)

/-- In every run whose steps are admissible and in which `set_discoverable` reads metadata that can
be published, whenever all calls have returned the service is registered exactly when the device is
discoverable. -/
theorem hidden_not_advertised (info : ServiceInfo) (metadata : DeviceMetadata)
    {inputs : List (Pool.Input Call.Reply Operation Empty)}
    (admissible : Run.Along (system platform multicast identity).step
      (System.initial (World.bound info metadata))
      ((system platform multicast identity).Meets Admissible) inputs)
    (publishable : Run.Along (system platform multicast identity).step
      (System.initial (World.bound info metadata)) ((system platform multicast identity).Meets
        fun _ moment => Publishable platform multicast identity moment) inputs) :
    Run.Throughout (system platform multicast identity).step
      (System.initial (World.bound info metadata)) Hidden inputs := by
  have both : Run.Along (system platform multicast identity).step
      (System.initial (World.bound info metadata)) ((system platform multicast identity).Meets
        fun history moment => Admissible history moment ∧
          Publishable platform multicast identity moment) inputs :=
    fun done input isPrefix moment made => ⟨admissible done input isPrefix moment made,
      publishable done input isPrefix moment made⟩
  have kept := (conduct platform multicast identity).invariant_run (fun history world =>
      Coherent history world ∧
        ∀ entry ∈ history, Publishable platform multicast identity entry.moment)
    ⟨coherent_bound info metadata, by simp⟩ (fun _ holds proper answered met => ⟨coherent_call
      holds.1 proper answered met.1, fun entry member => ?_⟩) nofun both
  · intro done isPrefix
    obtain ⟨conducted, coherent, read⟩ := kept done isPrefix
    exact hidden_of_coherent platform multicast identity conducted coherent read
  · rcases List.mem_concat_iff.mp member with earlier | now
    · exact holds.2 entry earlier
    · rw [now]
      exact met.2

/-! ## Concrete runs -/

/-- An environment in which the endpoint has a port and the daemon accepts everything. -/
def prompt : (call : Call) → call.Reply
  | .storeDiscoverable _ | .writeMetadata _ | .storePublished _ => ()
  | .readMetadata => ⟨"desk", "", ""⟩
  | .localPort => .ok 4711
  | .loadPublished => true
  | .register _ | .unregister => .ok ()

/-- The identity of the device. -/
def sampleIdentity : LocalIdentity := ⟨⟨"arc-desk"⟩, .sample "arc-desk", Vector.replicate 32 0⟩

/-- The device renames itself and is hidden. The renaming makes so many steps before the device is
hidden, which takes six steps, and the rest of its four steps after that. -/
def renameRun (before : Nat) : List (Pool.Input Call.Reply Operation Empty) :=
  [.start (.updateMetadata ⟨"new desk", "", ""⟩), .start (.setDiscoverable false)] ++
    List.replicate before (.resume 0 prompt) ++ List.replicate 6 (.resume 1 prompt) ++
      List.replicate (4 - before) (.resume 0 prompt)

/-- The system of the device. -/
abbrev sampleSystem : System Call.Reply (Except NetworkError Unit) World Operation Empty :=
  system (.sample [] ⟨none, []⟩) .sample sampleIdentity

/-- The device after it was bound. -/
def sampleWorld : World := .bound ⟨"", "", "", 4711, []⟩ ⟨"desk", "", ""⟩

/-- The device with its calls after the run. -/
def renamed (before : Nat) : Pool Call.Reply (Except NetworkError Unit) World Operation :=
  Run.exec sampleSystem.step (System.initial sampleWorld) (renameRun before)

/-- The daemon accepts the service of the device with any metadata. -/
theorem publishable_sample (moment : Moment) :
    Publishable (.sample [] ⟨none, []⟩) .sample sampleIdentity moment := by
  obtain ⟨world, call, reply⟩ := moment
  cases call
  case readMetadata =>
    intro port positive
    exact ⟨_, by simp only [serviceInfo, if_neg positive]; rfl⟩
  all_goals trivial

/-- When the renaming registers before the device is hidden, the device stays hidden. -/
theorem hidden_not_advertised_renamed :
    (renamed 3).world.discoverable = false ∧ (renamed 3).jobs.length = 2 ∧ Hidden (renamed 3) :=
  ⟨by decide +kernel, by decide +kernel, hidden_not_advertised _ _ _ _ _
    (show Run.Along _ _ _ (renameRun 3) by decide +kernel)
    (fun _ _ _ moment _ => publishable_sample moment) _ (List.prefix_refl _)⟩

/-- When the device is hidden after the renaming has looked at the flag and before it registers, it
is advertised again although it is hidden. -/
theorem hidden_yet_advertised :
    System.outcome (renamed 2) 0 = some (.updateMetadata ⟨"new desk", "", ""⟩, .ok ()) ∧
      System.outcome (renamed 2) 1 = some (.setDiscoverable false, .ok ()) ∧
        (renamed 2).jobs.length = 2 ∧ (renamed 2).world.discoverable = false ∧
          (renamed 2).world.registered.isSome = true := by
  decide +kernel

end ArcRelay.Visibility
