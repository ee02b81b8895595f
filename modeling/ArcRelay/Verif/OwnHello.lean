import ArcRelay.Handshake
import ArcRelay.Verif.Protocol
import ArcRelay.Verif.Visibility

/-!
# A device's own hello

What `local_hello` puts together passes `validate_hello` at a peer with the same
constants, as long as the metadata is as short as the receiver wants it. Neither
`bind` nor `update_metadata` looks at the lengths: once a platform name of more than
64 bytes is accepted, every hello of the device is refused.
-/

namespace ArcRelay

open Async

/-- The lengths of metadata that `validate_hello` admits. -/
def DeviceMetadata.Fits (metadata : DeviceMetadata) : Prop :=
  metadata.name.utf8ByteSize ≤ 255 ∧ metadata.platform.utf8ByteSize ≤ 64 ∧
    metadata.model.utf8ByteSize ≤ 255

instance (metadata : DeviceMetadata) : Decidable metadata.Fits :=
  inferInstanceAs (Decidable (_ ∧ _))

namespace Runtime

variable (self : Runtime)

/-- What `service_info` reads of the identity of the runtime. -/
def identity : LocalIdentity := ⟨self.deviceId, self.publicKey, self.certificateSha256⟩

/-- What the identity of a runtime comes with: the id is bound to the key, and the key has signed
the certificate digest. -/
structure Identified (runtime : Runtime) : Prop where
  bound : runtime.platform.Bound runtime.deviceId runtime.publicKey
  signature : runtime.platform.signatureFromBytes runtime.endpointBindingSignature.asBytes =
    .ok runtime.endpointBindingSignature
  binding : runtime.platform.verifySignature runtime.publicKey .endpointBinding
    runtime.certificateSha256.toList runtime.endpointBindingSignature = .ok ()

/-- The device as a peer sees it that accepts its hello. -/
def asPeer (metadata : DeviceMetadata) : SessionPeer :=
  ⟨self.deviceId, self.publicKey, metadata, self.certificateSha256, 0⟩

variable {self}

theorem admissibleHello_helloWith (kind : SessionKind) (nonce : Digest)
    (metadata : DeviceMetadata) :
    self.platform.admissibleHello (self.helloWith kind nonce metadata) = true ↔ metadata.Fits := by
  have range : ¬ self.platform.maxProtocolMinor < self.platform.minProtocolMinor :=
    UInt32.not_lt.mpr self.platform.minProtocolMinor_le
  simp only [Platform.admissibleHello, helloWith, DeviceMetadata.Fits, Vector.length_toList,
    Bool.not_eq_true', Bool.or_eq_false_iff, bne_self_eq_false, decide_eq_false_iff_not, not_lt,
    gt_iff_lt, range, decide_false, true_and, and_assoc]

theorem validateHello_helloWith (identified : self.Identified) (kind : SessionKind) (nonce : Digest)
    {metadata : DeviceMetadata} (fits : metadata.Fits) :
    self.platform.validateHello (self.helloWith kind nonce metadata) (some kind) =
      .ok (self.asPeer metadata) :=
  Platform.validateHello_of_accepted
    { admissible := (admissibleHello_helloWith kind nonce metadata).mpr fits
      kind := rfl
      deviceId := identified.bound.parsed
      publicKey := identified.bound.read
      bound := identified.bound.verified
      certificate := digestOfBytes?_toList _
      binding := ⟨_, identified.signature, identified.binding⟩
      metadata := rfl } rfl

theorem validateHello_helloWith_of_not_fits (kind : SessionKind) (nonce : Digest)
    {metadata : DeviceMetadata} (unfit : ¬ metadata.Fits) :
    self.platform.validateHello (self.helloWith kind nonce metadata) (some kind) =
      .error (.protocol "invalid session hello") := by
  have outside : self.platform.admissibleHello (self.helloWith kind nonce metadata) = false :=
    Bool.eq_false_iff.mpr fun admissible =>
      unfit ((admissibleHello_helloWith kind nonce metadata).mp admissible)
  simp [Platform.validateHello, outside, Except.refuse, bind, Except.bind]

/-- The hello is accepted for every kind exactly when the metadata fits. -/
theorem validateHello_helloWith_iff (identified : self.Identified) (metadata : DeviceMetadata) :
    (∀ kind nonce,
      self.platform.validateHello (self.helloWith kind nonce metadata) (some kind) =
        .ok (self.asPeer metadata)) ↔ metadata.Fits := by
  constructor
  · intro every
    by_contra unfit
    have refused := every .control (Vector.replicate 32 0)
    rw [validateHello_helloWith_of_not_fits .control _ unfit] at refused
    cases refused
  · exact fun fits kind nonce => validateHello_helloWith identified kind nonce fits

end Runtime

namespace Visibility

variable (platform : Platform) (multicast : Multicast) (identity : LocalIdentity)

/-- A call that writes no metadata. -/
def Unwriting (call : Call) : Prop := ∀ metadata, call ≠ .writeMetadata metadata

/-- No metadata was written. -/
def Unwritten (past : List Moment) : Prop := ∀ moment ∈ past, Unwriting moment.call

/-- The contract of programs that write no metadata. -/
abbrev unwriting : Program.Contract World Call.Reply := ⟨fun _ => Unwriting, fun _ _ => True⟩

variable {past : List Moment}

theorem unwriting_step {request : Call} (allowed : Unwriting request) :
    Async.Ensures unwriting (fun _ _ => True) past (step request) :=
  ensures_call allowed fun _ _ _ => trivial

theorem unwriting_announce (metadata : DeviceMetadata) (port : UInt16) :
    Async.Ensures unwriting (fun _ _ => True) past
      (announce platform multicast identity metadata port) := by
  refine ensures_bind ensures_succeeded fun _ info _ => ?_
  refine ensures_bind (unwriting_step (by simp [Unwriting])) fun _ reply _ => ?_
  exact ensures_ofExcept fun _ _ => trivial

/-- `set_local_published` writes no metadata. -/
theorem unwriting_setLocalPublished (metadata : DeviceMetadata) (port : UInt16) (published : Bool) :
    Async.Ensures unwriting (fun _ _ => True) past
      (setLocalPublished platform multicast identity metadata port published) := by
  refine ensures_bind (unwriting_step (by simp [Unwriting])) fun _ previous _ => ?_
  refine ensures_whenever (fun _ => ?_) fun _ => trivial
  have registered : ∀ now, Async.Ensures unwriting (fun _ _ => True) now
      (register platform multicast identity metadata port published) := fun now => by
    cases published with
    | true => exact unwriting_announce platform multicast identity metadata port
    | false =>
      refine ensures_bind (unwriting_step (by simp [Unwriting])) fun _ reply _ => ?_
      exact ensures_ofExcept fun _ _ => trivial
  exact ensures_bind (registered _) fun _ _ _ => unwriting_step (by simp [Unwriting])

/-- `set_discoverable` writes no metadata. -/
theorem unwriting_setDiscoverable (discoverable : Bool) :
    Async.Ensures unwriting (fun _ _ => True) past
      (setDiscoverable platform multicast identity discoverable) := by
  refine ensures_bind (unwriting_step (by simp [Unwriting])) fun _ _ _ => ?_
  refine ensures_bind (unwriting_step (by simp [Unwriting])) fun _ metadata _ => ?_
  refine ensures_bind (unwriting_step (by simp [Unwriting])) fun _ port _ => ?_
  refine ensures_bind (ensures_result (unwriting_setLocalPublished platform multicast
    identity metadata _ discoverable)) fun _ _ _ => ?_
  exact ensures_pure trivial

/-- `update_local_metadata` writes no metadata. -/
theorem unwriting_updateLocalMetadata (metadata : DeviceMetadata) (port : UInt16) :
    Async.Ensures unwriting (fun _ _ => True) past
      (updateLocalMetadata platform multicast identity metadata port) := by
  refine ensures_bind (unwriting_step (by simp [Unwriting])) fun _ published _ => ?_
  exact ensures_whenever
    (fun _ => unwriting_announce platform multicast identity metadata port) fun _ => trivial

/-- A call is made before any metadata was written, and metadata is written by the `update_metadata`
it was given to. -/
def Writes (operation : Operation) (past : List Moment) (call : Call) : Prop :=
  Unwritten past ∧ ∀ metadata, call = .writeMetadata metadata → operation = .updateMetadata metadata

/-- What a call has written when it returns: nothing unless it succeeds, and an `update_metadata`
that succeeds has just written its metadata. -/
def Written (operation : Operation) (past : List Moment) (result : Except NetworkError Unit) :
    Prop :=
  (Unwritten past ∨ result = .ok ()) ∧ ∀ metadata, operation = .updateMetadata metadata →
    result = .ok () → ∃ before world, past = before ++ [⟨world, .writeMetadata metadata, ()⟩]

/-- While a program writes no metadata, none is written. -/
theorem writes_of_unwriting (operation : Operation) {program : Action Unit}
    (unwritten : Unwritten past)
    (ensures : Async.Ensures unwriting (fun _ _ => True) past program) :
    program.run.Ensures ⟨Writes operation, fun _ _ => True⟩ (fun now _ => Unwritten now) past := by
  have keeps : ∀ (now : List Moment) (moment : Moment), Unwritten now → Unwriting moment.call →
      Unwritten (now ++ [moment]) := by
    intro now moment before silent other member
    rcases List.mem_concat_iff.mp member with earlier | last
    · exact before other earlier
    · exact last ▸ silent
  have guarantees : ∀ (now : List Moment) call, Unwritten now → Unwriting call →
      Writes operation now call := fun _ _ before silent =>
    ⟨before, fun metadata same => absurd same (silent metadata)⟩
  exact (Program.Ensures.relax_along ensures Unwritten unwritten keeps guarantees
    fun _ _ _ => trivial).mono fun _ _ known => known.1

/-- `update_metadata` writes what it was given, with its last call. -/
theorem written_updateMetadata (metadata : DeviceMetadata) :
    (updateMetadata platform multicast identity metadata).run.Ensures
      ⟨Writes (.updateMetadata metadata), fun _ _ => True⟩
      (Written (.updateMetadata metadata)) [] := by
  have unwritten : Unwritten [] := by simp [Unwritten]
  refine ensures_call_bind ⟨unwritten, by simp⟩ fun world reply _ => ?_
  have asked : Unwritten ([] ++ [⟨world, .localPort, reply⟩]) := by simp [Unwritten, Unwriting]
  cases reply with
  | error error => exact ⟨Or.inl asked, by simp⟩
  | ok port =>
    have announced := writes_of_unwriting (.updateMetadata metadata) asked
      (unwriting_updateLocalMetadata platform multicast identity metadata port)
    change (updateLocalMetadata platform multicast identity metadata port >>= fun _ =>
      step (.writeMetadata metadata)).run.Ensures _ _ _
    refine Program.ensures_bind announced fun now result before => ?_
    cases result with
    | error error => exact ⟨Or.inl before, by simp⟩
    | ok value =>
      refine ⟨⟨before, ?_⟩, fun world _ _ => ⟨Or.inr rfl, ?_⟩⟩
      · rintro _ ⟨⟩
        rfl
      · rintro _ ⟨⟩ -
        exact ⟨now, world, rfl⟩

/-- What the calls write. -/
def naming : Conduct (system platform multicast identity) where
  guarantee := Writes
  post := Written
  programs
    | .updateMetadata metadata => written_updateMetadata platform multicast identity metadata
    | .setDiscoverable discoverable =>
      (writes_of_unwriting _ (by simp [Unwritten])
        (unwriting_setDiscoverable platform multicast identity discoverable)).mono
        fun _ _ unwritten => ⟨Or.inl unwritten, by simp⟩

theorem metadata_handle {world after : World} {call : Call} {proposal reply : call.Reply}
    (answered : handle world call proposal = some (reply, after)) :
    after.metadata = world.metadata ∨ call = .writeMetadata after.metadata := by
  cases call with
  | writeMetadata metadata =>
    cases answered
    exact Or.inr rfl
  | register info => cases proposal <;> cases answered <;> exact Or.inl rfl
  | unregister => cases proposal <;> cases answered <;> exact Or.inl rfl
  | _ =>
    cases answered
    exact Or.inl rfl

/-- An `update_metadata` that succeeds in this step was given metadata that fits. -/
def Admits (pool : Pool Call.Reply (Except NetworkError Unit) World Operation)
    (input : Pool.Input Call.Reply Operation Empty) : Prop :=
  ∀ index metadata, System.outcome pool index = none →
    System.outcome ((system platform multicast identity).step pool input) index =
      some (.updateMetadata metadata, .ok ()) → metadata.Fits

/-- In a step that admits metadata that fits only, the metadata of the runtime keeps fitting. -/
theorem fits_step {pool : Pool Call.Reply (Except NetworkError Unit) World Operation}
    {input : Pool.Input Call.Reply Operation Empty}
    (kept : (naming platform multicast identity).Kept pool) (fits : pool.world.metadata.Fits)
    (admits : Admits platform multicast identity pool input) :
    ((system platform multicast identity).step pool input).world.metadata.Fits := by
  have after : (naming platform multicast identity).Kept
      ((system platform multicast identity).step pool input) := Conduct.kept_step kept
  have stepped := (system platform multicast identity).step_cases pool input
  unfold Admits at admits
  generalize (system platform multicast identity).step pool input = pool' at stepped after admits ⊢
  cases stepped with
  | start operation => exact fits
  | call index proposal job request next reply world found awaiting answered =>
    rcases metadata_handle answered with same | rfl
    · exact same ▸ fits
    · have bound := (List.getElem?_eq_some_iff.mp found).1
      have running : System.outcome pool index = none := by
        simp only [System.outcome, found, awaiting]
      have updates : job.operation = .updateMetadata world.metadata :=
        (kept.next found awaiting).2 _ rfl
      have ensures := after.rests _ (List.mem_set bound _)
      have written : ¬ Unwritten
          (job.past ++ [⟨pool.world, .writeMetadata world.metadata, reply⟩]) :=
        fun unwritten => unwritten _ List.mem_concat_self _ rfl
      -- After a write no call is left, so the writer returns, and it succeeds.
      cases rest : next reply with
      | await later others =>
        rw [rest] at ensures
        exact absurd ensures.1.1 written
      | done result =>
        rw [rest] at ensures
        obtain rfl := ensures.1.resolve_left written
        refine admits index _ running ?_
        simp only [System.outcome, List.getElem?_set_self bound, rest, updates]
  | idle index proposal => exact fits
  | disturb event => exact event.elim

/-- If the metadata of the runtime fits after a step, the step admits metadata that fits only. -/
theorem admits_step {pool : Pool Call.Reply (Except NetworkError Unit) World Operation}
    {input : Pool.Input Call.Reply Operation Empty}
    (kept : (naming platform multicast identity).Kept pool)
    (fits : ((system platform multicast identity).step pool input).world.metadata.Fits) :
    Admits platform multicast identity pool input := by
  intro index metadata running returned
  have after : (naming platform multicast identity).Kept
      ((system platform multicast identity).step pool input) := Conduct.kept_step kept
  obtain ⟨before, world, written⟩ := (after.achieved returned).2 metadata rfl rfl
  obtain ⟨job, found, -, -, last⟩ := (system platform multicast identity).returning running returned
  rw [← after.recorded.past index job found] at written
  rcases last with unasked | ⟨earlier, request, proposal, reply, past, answered⟩
  · rw [unasked] at written
    exact absurd written (by simp)
  · rw [past] at written
    obtain ⟨-, same⟩ := List.append_inj' written rfl
    cases same
    -- The last call is the write, so the runtime has the metadata now.
    have replaced : metadata =
        ((system platform multicast identity).step pool input).world.metadata :=
      congrArg (fun answer => answer.2.metadata) (Option.some.inj answered)
    exact replaced ▸ fits

/-- In every run of a runtime, the hello for every kind is accepted at every moment by a peer with
the same constants, and names the device, its key, its metadata and its certificate, exactly when
the metadata `bind` was given fits and so does that of every `update_metadata` that succeeds. -/
theorem own_hello_accepted {self : Runtime} (identified : self.Identified) (multicast : Multicast)
    (info : ServiceInfo) (metadata : DeviceMetadata)
    (inputs : List (Pool.Input Call.Reply Operation Empty)) :
    Run.Throughout (system self.platform multicast self.identity).step
      (System.initial (World.bound info metadata)) (fun pool => ∀ kind nonce,
        self.platform.validateHello (self.helloWith kind nonce pool.world.metadata) (some kind) =
          .ok ⟨self.deviceId, self.publicKey, pool.world.metadata, self.certificateSha256, 0⟩)
      inputs ↔
    metadata.Fits ∧ Run.Along (system self.platform multicast self.identity).step
      (System.initial (World.bound info metadata))
      (Admits self.platform multicast self.identity) inputs := by
  have accepted : ∀ metadata : DeviceMetadata, (∀ kind nonce,
      self.platform.validateHello (self.helloWith kind nonce metadata) (some kind) =
        .ok (self.asPeer metadata)) ↔ metadata.Fits :=
    Runtime.validateHello_helloWith_iff identified
  by_cases bound : metadata.Fits
  · rw [and_iff_right bound]
    refine Run.throughout_iff_along ((accepted metadata).mpr bound)
      (Conduct.kept_initial _ : (naming self.platform multicast self.identity).Kept _)
      (fun _ _ kept => Conduct.kept_step kept) (fun _ _ kept before admits => ?_)
      (fun _ _ kept _ after => ?_) inputs
    · exact (accepted _).mpr (fits_step _ _ _ kept ((accepted _).mp before) admits)
    · exact admits_step _ _ _ kept ((accepted _).mp after)
  · refine iff_of_false (fun every => bound ?_) fun both => bound both.1
    exact (accepted metadata).mp (every [] List.nil_prefix)

/-! ## Concrete runs -/

/-- The device of the concrete runs. -/
def helloRuntime : Runtime := .sample (.sample [] ⟨none, []⟩) "arc-desk" 0

theorem identified_helloRuntime : helloRuntime.Identified :=
  ⟨⟨by decide +kernel, by decide +kernel, by decide +kernel⟩, by decide +kernel, by decide +kernel⟩

/-- The device renames itself. -/
def renameTo (metadata : DeviceMetadata) : List (Pool.Input Call.Reply Operation Empty) :=
  .start (.updateMetadata metadata) :: List.replicate 4 (.resume 0 prompt)

/-- The device after it has renamed itself. -/
def renamedTo (metadata : DeviceMetadata) :
    Pool Call.Reply (Except NetworkError Unit) World Operation :=
  Run.exec (system helloRuntime.platform .sample helloRuntime.identity).step
    (System.initial sampleWorld) (renameTo metadata)

/-- After a short name is accepted the hello is accepted too. -/
theorem own_hello_accepted_renamed :
    System.outcome (renamedTo ⟨"new desk", "linux", ""⟩) 0 =
      some (.updateMetadata ⟨"new desk", "linux", ""⟩, .ok ()) ∧
    ∀ kind nonce, helloRuntime.platform.validateHello (helloRuntime.helloWith kind nonce
      (renamedTo ⟨"new desk", "linux", ""⟩).world.metadata) (some kind) =
        .ok ⟨helloRuntime.deviceId, helloRuntime.publicKey,
          (renamedTo ⟨"new desk", "linux", ""⟩).world.metadata, helloRuntime.certificateSha256,
            0⟩ := by
  have known : Run.Along (system helloRuntime.platform .sample helloRuntime.identity).step
      (System.initial sampleWorld) (fun pool input =>
        ∀ job ∈ ((system helloRuntime.platform .sample helloRuntime.identity).step pool input).jobs,
          job.operation = .updateMetadata ⟨"new desk", "linux", ""⟩)
      (renameTo ⟨"new desk", "linux", ""⟩) := by decide +kernel
  have admits : Run.Along (system helloRuntime.platform .sample helloRuntime.identity).step
      (System.initial sampleWorld) (Admits helloRuntime.platform .sample helloRuntime.identity)
      (renameTo ⟨"new desk", "linux", ""⟩) := by
    intro done input isPrefix index metadata _ returned
    obtain ⟨job, found, about, -⟩ := System.outcome_eq_some returned
    have renames := known done input isPrefix job (List.mem_of_getElem? found)
    obtain rfl := Operation.updateMetadata.inj (about.symm.trans renames)
    decide +kernel
  exact ⟨by decide +kernel, (own_hello_accepted identified_helloRuntime .sample _ _ _).mpr
    ⟨by decide +kernel, admits⟩ _ (List.prefix_refl _)⟩

/-- A platform name of 65 bytes. -/
def longPlatform : DeviceMetadata := ⟨"desk", String.ofList (List.replicate 65 'p'), ""⟩

/-- `update_metadata` accepts a platform name of 65 bytes and the daemon registers it, and from then
on every hello of the device is refused. -/
theorem own_hello_refused :
    System.outcome (renamedTo longPlatform) 0 = some (.updateMetadata longPlatform, .ok ()) ∧
    (renamedTo longPlatform).world.registered.isSome = true ∧
    ∀ kind nonce, helloRuntime.platform.validateHello
      (helloRuntime.helloWith kind nonce (renamedTo longPlatform).world.metadata) (some kind) =
        .error (.protocol "invalid session hello") := by
  refine ⟨by decide +kernel, by decide +kernel, fun kind nonce => ?_⟩
  have written : (renamedTo longPlatform).world.metadata = longPlatform := by decide +kernel
  rw [written]
  exact Runtime.validateHello_helloWith_of_not_fits kind nonce (by decide +kernel)

end Visibility

end ArcRelay
