import ArcRelay.FeatureStreams
import ArcRelay.Lib.Run
import ArcRelay.Verif.Handshake

/-!
# No feature stream is lost, and none waits behind another

Whatever the peer sends, whoever gives up waiting and in whatever order the headers arrive:
every stream the peer has opened is in one place, at most eight headers are being read, and
what a caller gets is a well-formed header. While the connection is open, a stream whose
header has been read is handed to one of the next eight callers' turns, however many other
headers never arrive.
-/

namespace ArcRelay

open Async

/-- A stream with a header that passed the checks. -/
structure FeatureStream.Valid (feature : FeatureStream) : Prop where
  featureId : validFeatureId feature.featureId = true
  major : feature.featureMajor ≠ 0
  minors : feature.minFeatureMinor ≤ feature.maxFeatureMinor
  streamId : feature.streamId ≠ 0
  operation : validOperation feature.operation = true

theorem validHeader_iff {header : FeaturePayload} (stream : Nat) :
    validHeader header = true ↔ (FeatureStream.ofHeader header stream).Valid := by
  simp only [validHeader, Bool.not_eq_true', Bool.or_eq_false_iff, Bool.not_eq_false',
    beq_eq_false_iff_ne, decide_eq_false_iff_not, gt_iff_lt, UInt32.not_lt]
  constructor
  · rintro ⟨⟨⟨⟨featureId, major⟩, minors⟩, streamId⟩, operation⟩
    exact ⟨featureId, major, minors, streamId, operation⟩
  · rintro ⟨featureId, major, minors, streamId, operation⟩
    exact ⟨⟨⟨⟨featureId, major⟩, minors⟩, streamId⟩, operation⟩

/-- The minor versions that a stream offers and a feature supports. -/
def FeatureStream.common (feature : FeatureStream) (low high : UInt32) : Set UInt32 :=
  {minor | (feature.minFeatureMinor ≤ minor ∧ minor ≤ feature.maxFeatureMinor) ∧
    low ≤ minor ∧ minor ≤ high}

/-- `negotiate_minor` finds the largest common minor version of the same major version, and fails if
there is none. -/
theorem negotiateMinor_eq_ok {feature : FeatureStream} {major low high minor : UInt32} :
    feature.negotiateMinor major low high = .ok minor ↔
      feature.featureMajor = major ∧ IsGreatest (feature.common low high) minor := by
  simp only [FeatureStream.negotiateMinor, FeatureStream.common, IsGreatest, upperBounds,
    Set.mem_ofPred_eq]
  split
  · rename_i unsupported
    constructor
    · intro failed
      cases failed
    · rintro ⟨same, inside, -⟩
      rcases unsupported with other | empty
      · exact absurd same other
      · exact absurd (UInt32.le_trans inside.2.1 inside.2.2) (UInt32.not_le.mpr empty)
  · rename_i supported
    obtain ⟨same, -⟩ := not_or.mp supported
    simp only [ne_eq, not_not] at same
    split
    · rename_i range
      constructor
      · intro found
        cases found
        refine ⟨same, ?_, fun other known => ?_⟩
        · simp only [UInt32.le_iff_toNat_le, toNat_max, toNat_min] at range ⊢
          omega
        · simp only [UInt32.le_iff_toNat_le, toNat_min] at known ⊢
          omega
      · rintro ⟨-, inside, greatest⟩
        have above : min feature.maxFeatureMinor high ≤ minor := by
          refine greatest ?_
          simp only [UInt32.le_iff_toNat_le, toNat_max, toNat_min] at range ⊢
          omega
        have equal : min feature.maxFeatureMinor high = minor := by
          rw [← UInt32.toNat_inj]
          simp only [UInt32.le_iff_toNat_le, toNat_min] at above inside ⊢
          omega
        rw [equal]
    · rename_i apart
      constructor
      · intro failed
        cases failed
      · rintro ⟨-, inside, -⟩
        refine absurd ?_ apart
        simp only [UInt32.le_iff_toNat_le, toNat_max, toNat_min] at inside ⊢
        omega

/-- A header is read well and says nothing, or the stream is refused. -/
theorem readFeatureHeader_cases (decode : Bytes → Except String FeaturePayload) (stream : Nat)
    (frame : Option (Except NetworkError Bytes)) :
    (∃ feature : FeatureStream, readFeatureHeader decode stream frame = (.ok feature, []) ∧
      feature.Valid ∧ feature.stream = stream) ∨
    ∃ error, readFeatureHeader decode stream frame = (.error error, refusal) := by
  unfold readFeatureHeader
  split
  · exact Or.inr ⟨_, rfl⟩
  · exact Or.inr ⟨_, rfl⟩
  · split
    · rename_i header _ checked
      exact Or.inl ⟨_, rfl, (validHeader_iff stream).mp checked, rfl⟩
    · exact Or.inr ⟨_, rfl⟩

namespace Acceptor

/-! ## What one turn does -/

/-- What the `select!` can complete with. -/
inductive Selects (acceptor : Acceptor) : Selected → Prop
  | closed (reason : String) (known : acceptor.closed = some reason) :
    Selects acceptor (.closed reason)
  | joined (first last : List HeaderTask) (stream : Nat)
    (result : Except NetworkError FeatureStream) (openStill : acceptor.closed = none)
    (tasks : acceptor.pendingHeaders = first ++ ⟨stream, some result⟩ :: last) :
    Selects acceptor (.joined result (first ++ last))
  | accepted (stream : Nat) (later : List Nat) (waits : acceptor.incoming = stream :: later)
    (room : acceptor.pendingHeaders.length < 8)
    (running : ∀ task ∈ acceptor.pendingHeaders, task.result = none) :
    Selects acceptor (.accepted stream later)
  | lost (reason : String) (running : ∀ task ∈ acceptor.pendingHeaders, task.result = none) :
    Selects acceptor (.lost reason)
  | nothing (running : ∀ task ∈ acceptor.pendingHeaders, task.result = none) :
    Selects acceptor .nothing

/-- The `select!` completes with one of these. -/
theorem select_cases (acceptor : Acceptor) (choice : Nat) (lost : Option String) :
    Selects acceptor (acceptor.select choice lost) := by
  unfold select
  split
  · rename_i reason known
    exact .closed reason known
  · rename_i openStill
    split
    · rename_i joined rest joining
      obtain ⟨stream, result⟩ := joined
      obtain ⟨first, last, tasks, rfl⟩ := JoinSet.joinNext_eq_some joining
      exact .joined first last stream result openStill tasks
    · rename_i joining
      have running := JoinSet.running_of_joinNext joining
      split
      · rename_i room
        split
        · exact .lost _ running
        · rename_i stream later waits
          exact .accepted stream later waits room running
        · exact .nothing running
      · exact .nothing running

/-- What a turn of the loop can do. -/
inductive Turned (acceptor : Acceptor) : Acceptor → Prop
  | idle (free : ∀ caller ∈ acceptor.callers, caller.isAccepting = false) : Turned acceptor acceptor
  | waits (running : ∀ task ∈ acceptor.pendingHeaders, task.result = none) :
    Turned acceptor acceptor
  | closed (before after : List Caller) (reason : String)
    (callers : acceptor.callers = before ++ .accepting :: after)
    (known : acceptor.closed = some reason) :
    Turned acceptor
      { acceptor with callers := before ++ .returned (.error (.quic reason)) :: after }
  | delivered (before after : List Caller) (first last : List HeaderTask) (stream : Nat)
    (feature : FeatureStream) (callers : acceptor.callers = before ++ .accepting :: after)
    (tasks : acceptor.pendingHeaders = first ++ ⟨stream, some (.ok feature)⟩ :: last) :
    Turned acceptor
      { acceptor with
        pendingHeaders := first ++ last
        callers := before ++ .returned (.ok feature) :: after }
  | refused (first last : List HeaderTask) (stream : Nat) (error : NetworkError)
    (tasks : acceptor.pendingHeaders = first ++ ⟨stream, some (.error error)⟩ :: last) :
    Turned acceptor { acceptor with pendingHeaders := first ++ last }
  | accepted (stream : Nat) (later : List Nat) (arrived : acceptor.incoming = stream :: later)
    (room : acceptor.pendingHeaders.length < 8)
    (running : ∀ task ∈ acceptor.pendingHeaders, task.result = none) :
    Turned acceptor
      { acceptor with
        incoming := later
        pendingHeaders := acceptor.pendingHeaders ++ [⟨stream, none⟩] }
  | lost (before after : List Caller) (reason : String)
    (callers : acceptor.callers = before ++ .accepting :: after)
    (running : ∀ task ∈ acceptor.pendingHeaders, task.result = none) :
    Turned acceptor
      { acceptor with
        closed := some reason
        callers := before ++ .returned (.error (.quic reason)) :: after }

/-- Every turn is one of these. -/
theorem turn_cases (acceptor : Acceptor) (choice : Nat) (lost : Option String) :
    Turned acceptor (acceptor.turn choice lost) := by
  unfold turn
  split
  · rename_i free
    exact .idle (List.findIdx?_eq_none_iff.mp free)
  · rename_i caller found
    obtain ⟨before, holder, after, callers, rfl, holds, -⟩ := List.split_of_findIdx? found
    obtain rfl : holder = .accepting := by
      cases holder with
      | accepting => rfl
      | _ => cases holds
    have returns : ∀ result, acceptor.callers.set before.length (.returned result) =
        before ++ .returned result :: after := fun result => by rw [callers, List.set_split]
    generalize completed : acceptor.select choice lost = selected
    have selects : Selects acceptor selected := completed ▸ acceptor.select_cases choice lost
    cases selects with
    | closed reason known =>
      simp only [finish, returns]
      exact .closed before after reason callers known
    | joined first last stream result openStill tasks =>
      cases result with
      | ok feature =>
        simp only [finish, returns]
        exact .delivered before after first last stream feature callers tasks
      | error error => exact .refused first last stream error tasks
    | accepted stream later arrived room running =>
      exact .accepted stream later arrived room running
    | lost reason running =>
      simp only [finish, returns]
      exact .lost before after reason callers running
    | nothing running => exact .waits running

/-- The lock is handed on, if it is free and somebody waits. -/
theorem lock_cases (acceptor : Acceptor) : acceptor.lock = acceptor ∨ ∃ before after,
    acceptor.callers = before ++ .waiting :: after ∧
    (∀ caller ∈ acceptor.callers, caller.isAccepting = false) ∧
    acceptor.lock = { acceptor with callers := before ++ .accepting :: after } := by
  unfold lock
  split
  · exact Or.inl rfl
  · rename_i free
    split
    · exact Or.inl rfl
    · rename_i caller found
      obtain ⟨before, next, after, callers, rfl, holds, -⟩ := List.split_of_findIdx? found
      obtain rfl : next = .waiting := by
        cases next with
        | waiting => rfl
        | _ => cases holds
      refine Or.inr ⟨before, after, callers, fun other member => ?_, ?_⟩
      · exact Bool.eq_false_iff.mpr fun accepting =>
          free (List.any_eq_true.mpr ⟨other, member, accepting⟩)
      · rw [callers, List.set_split]

theorem modify_cases (callers : List Caller) (caller : Nat) :
    callers.modify caller Caller.drop = callers ∨ ∃ before holder after,
      callers = before ++ holder :: after ∧
        callers.modify caller Caller.drop = before ++ holder.drop :: after := by
  cases found : callers[caller]? with
  | none => exact Or.inl (List.modify_eq_self (List.getElem?_eq_none_iff.mp found))
  | some holder =>
    obtain ⟨before, after, rfl, rfl⟩ := List.split_of_getElem? found
    exact Or.inr ⟨before, holder, after, rfl, List.modify_split _ _ _ _⟩

/-! ## Every stream is in one place -/

/-- The stream of a task that has not refused it. -/
def held (task : HeaderTask) : Option Nat :=
  match task.result with
  | some (.error _) => none
  | _ => some task.key

/-- The stream a caller has got. -/
def got : Caller → Option FeatureStream
  | .returned (.ok feature) => some feature
  | _ => none

/-- The streams that have been handed out. -/
def handedOut (acceptor : Acceptor) : List Nat :=
  (acceptor.callers.filterMap got).map FeatureStream.stream

/-- Streams are where they belong. -/
structure Sound (acceptor : Acceptor) : Prop where
  /-- The streams that wait, those in a task, those handed out and those refused are, each once, the
  streams the peer has opened. Refusing a stream is what the peer is told about it, and all it is
  told. -/
  placed : ∃ refused : List Nat,
    acceptor.signals = refused.flatMap (fun stream => refusal.map fun signal => (stream, signal)) ∧
    (acceptor.incoming ++ acceptor.pendingHeaders.filterMap held ++ acceptor.handedOut ++
      refused).Perm (List.range acceptor.opened)
  bounded : acceptor.pendingHeaders.length ≤ 8
  exclusive : acceptor.callers.countP Caller.isAccepting ≤ 1
  /-- A header that has been read is well formed, and the one of its stream. -/
  read : ∀ task ∈ acceptor.pendingHeaders, ∀ feature, task.result = some (.ok feature) →
    feature.Valid ∧ feature.stream = task.key
  returned : ∀ caller ∈ acceptor.callers, ∀ feature, got caller = some feature → feature.Valid

variable {decode : Bytes → Except String FeaturePayload} {acceptor : Acceptor}

theorem sound_start : Sound start where
  placed := ⟨[], rfl, List.Perm.refl _⟩
  bounded := by decide
  exclusive := by decide
  read := fun _ member => absurd member List.not_mem_nil
  returned := fun _ member => absurd member List.not_mem_nil

section Callers

variable {before after : List Caller} {caller other : Caller}

theorem countP_replace (exclusive : (before ++ caller :: after).countP Caller.isAccepting ≤ 1)
    (gives : other.isAccepting = false) :
    (before ++ other :: after).countP Caller.isAccepting ≤ 1 := by
  simp only [List.countP_append, List.countP_cons, gives] at exclusive ⊢
  simp only [Bool.false_eq_true, if_false]
  omega

/-- What is said of all callers and of the one that changes is said of all of them after. -/
theorem forall_replace {property : Caller → Prop}
    (all : ∀ each ∈ before ++ caller :: after, property each) (holds : property other) :
    ∀ each ∈ before ++ other :: after, property each := by
  intro each inside
  rcases List.mem_append.mp inside with earlier | rest
  · exact all each (List.mem_append_left _ earlier)
  · rcases List.mem_cons.mp rest with rfl | later
    · exact holds
    · exact all each (List.mem_append_right _ (List.mem_cons_of_mem _ later))

end Callers

/-- A turn keeps everything in place. -/
theorem Sound.turn (sound : Sound acceptor) {after : Acceptor} (turned : Turned acceptor after) :
    Sound after := by
  obtain ⟨⟨refused, told, placed⟩, bounded, exclusive, read, returned⟩ := sound
  cases turned with
  | idle free => exact ⟨⟨refused, told, placed⟩, bounded, exclusive, read, returned⟩
  | waits running => exact ⟨⟨refused, told, placed⟩, bounded, exclusive, read, returned⟩
  | closed before after reason callers known =>
    rw [callers] at exclusive returned
    refine ⟨⟨refused, told, ?_⟩, bounded, countP_replace exclusive rfl, read,
      forall_replace returned fun _ same => by cases same⟩
    simpa [handedOut, callers, got, List.filterMap_cons] using placed
  | delivered before after first last stream feature callers tasks =>
    rw [callers] at exclusive returned
    rw [tasks] at read bounded
    obtain ⟨valid, own⟩ := read _ (List.mem_append_right _ List.mem_cons_self) feature rfl
    refine ⟨⟨refused, told, ?_⟩, ?_, countP_replace exclusive rfl,
      fun task member => read task (List.subset_of_split _ _ _ member),
      forall_replace returned fun other same => ?_⟩
    · rw [List.perm_iff_count] at placed ⊢
      intro element
      have balance := placed element
      simp only [handedOut, callers, tasks, got, held, List.filterMap_append, List.filterMap_cons,
        List.map_append, List.map_cons, List.count_append, List.count_cons, own] at balance ⊢
      omega
    · simp only [List.length_append, List.length_cons] at bounded ⊢
      omega
    · cases same
      exact valid
  | refused first last stream error tasks =>
    rw [tasks] at read bounded
    refine ⟨⟨refused, told, ?_⟩, ?_, exclusive,
      fun task member => read task (List.subset_of_split _ _ _ member), returned⟩
    · simpa [handedOut, tasks, held, List.filterMap_cons] using placed
    · simp only [List.length_append, List.length_cons] at bounded ⊢
      omega
  | accepted stream later arrived room running =>
    refine ⟨⟨refused, told, ?_⟩, ?_, exclusive, fun task member => ?_, returned⟩
    · rw [List.perm_iff_count] at placed ⊢
      intro element
      have balance := placed element
      simp only [handedOut, arrived, held, List.filterMap_append, List.filterMap_cons,
        List.filterMap_nil, List.count_append, List.count_cons, List.count_nil] at balance ⊢
      omega
    · simp only [List.length_append, List.length_cons, List.length_nil]
      omega
    · rcases List.mem_concat_iff.mp member with earlier | rfl
      · exact read task earlier
      · intro feature none
        cases none
  | lost before after reason callers running =>
    rw [callers] at exclusive returned
    refine ⟨⟨refused, told, ?_⟩, bounded, countP_replace exclusive rfl, read,
      forall_replace returned fun _ same => by cases same⟩
    simpa [handedOut, callers, got, List.filterMap_cons] using placed

/-- The end of a header task keeps everything in place. -/
theorem Sound.header (sound : Sound acceptor) (index : Nat)
    (frame : Option (Except NetworkError Bytes)) : Sound (acceptor.header decode index frame) := by
  unfold Acceptor.header
  split
  · rename_i stream found
    obtain ⟨⟨refused, told, placed⟩, bounded, exclusive, read, returned⟩ := sound
    obtain ⟨first, last, tasks, rfl⟩ := List.split_of_getElem? found
    rw [tasks] at read bounded
    rw [tasks, JoinSet.finish_split]
    have others : ∀ task ∈ first ++ last, ∀ feature, task.result = some (.ok feature) →
        feature.Valid ∧ feature.stream = task.key :=
      fun task member => read task (List.subset_of_split _ _ _ member)
    rcases readFeatureHeader_cases decode stream frame with
      ⟨feature, result, valid, own⟩ | ⟨error, result⟩
    · refine ⟨⟨refused, ?_, ?_⟩, ?_, exclusive, ?_, returned⟩
      · simpa [result] using told
      · simpa [handedOut, tasks, held, result, List.filterMap_cons] using placed
      · simpa using bounded
      · intro task member other ended
        rcases List.mem_append.mp member with earlier | rest
        · exact others task (List.mem_append_left _ earlier) other ended
        · rcases List.mem_cons.mp rest with rfl | later
          · rw [result] at ended
            cases ended
            exact ⟨valid, own⟩
          · exact others task (List.mem_append_right _ later) other ended
    · refine ⟨⟨refused ++ [stream], ?_, ?_⟩, ?_, exclusive, ?_, returned⟩
      · simp [result, told]
      · rw [List.perm_iff_count] at placed ⊢
        intro element
        have balance := placed element
        simp only [handedOut, tasks, held, result, List.filterMap_append, List.filterMap_cons,
          List.count_append, List.count_cons, List.count_nil] at balance ⊢
        omega
      · simpa using bounded
      · intro task member other ended
        rcases List.mem_append.mp member with earlier | rest
        · exact others task (List.mem_append_left _ earlier) other ended
        · rcases List.mem_cons.mp rest with rfl | later
          · rw [result] at ended
            cases ended
          · exact others task (List.mem_append_right _ later) other ended
  · exact sound

/-- Handing on the lock keeps everything in place. -/
theorem Sound.lock (sound : Sound acceptor) : Sound acceptor.lock := by
  rcases acceptor.lock_cases with same | ⟨before, after, callers, free, same⟩
  · rw [same]
    exact sound
  · obtain ⟨⟨refused, told, placed⟩, bounded, exclusive, read, returned⟩ := sound
    have nobody : acceptor.callers.countP Caller.isAccepting = 0 :=
      List.countP_eq_zero.mpr fun other member => Bool.eq_false_iff.mp (free other member)
    rw [callers] at returned nobody
    rw [same]
    refine ⟨⟨refused, told, ?_⟩, bounded, ?_, read, forall_replace returned fun _ same => by
      cases same⟩
    · simpa [handedOut, callers, got, List.filterMap_cons] using placed
    · simp only [List.countP_append, List.countP_cons, Caller.isAccepting] at nobody ⊢
      simp only [if_true]
      omega

theorem got_drop (caller : Caller) : got caller.drop = got caller := by
  cases caller <;> rfl

theorem Sound.drop (sound : Sound acceptor) (caller : Nat) :
    Sound { acceptor with callers := acceptor.callers.modify caller Caller.drop } := by
  rcases modify_cases acceptor.callers caller with same | ⟨before, holder, after, callers, same⟩
  · rw [same]
    exact sound
  · obtain ⟨⟨refused, told, placed⟩, bounded, exclusive, read, returned⟩ := sound
    rw [callers] at returned exclusive
    rw [same]
    refine ⟨⟨refused, told, ?_⟩, bounded, countP_replace exclusive (by cases holder <;> rfl), read,
      forall_replace returned ?_⟩
    · simpa [handedOut, callers, got_drop, List.filterMap_cons] using placed
    · rw [got_drop]
      exact returned holder (List.mem_append_right _ List.mem_cons_self)

/-- Every step keeps everything in place. -/
theorem Sound.step (sound : Sound acceptor) (input : Input) :
    Sound (acceptor.step decode input) := by
  cases input with
  | opens =>
    simp only [Acceptor.step]
    split
    · exact sound
    · obtain ⟨⟨refused, told, placed⟩, bounded, exclusive, read, returned⟩ := sound
      refine ⟨⟨refused, told, ?_⟩, bounded, exclusive, read, returned⟩
      rw [List.perm_iff_count] at placed ⊢
      intro element
      have balance := placed element
      simp only [handedOut, List.range_succ, List.count_append] at balance ⊢
      omega
  | closes reason =>
    exact ⟨sound.placed, sound.bounded, sound.exclusive, sound.read, sound.returned⟩
  | call =>
    obtain ⟨⟨refused, told, placed⟩, bounded, exclusive, read, returned⟩ := sound
    refine ⟨⟨refused, told, ?_⟩, bounded, ?_, read, fun caller member feature => ?_⟩
    · simpa [Acceptor.step, handedOut, got, List.filterMap_cons] using placed
    · simpa [Acceptor.step, Caller.isAccepting] using exclusive
    · rcases List.mem_concat_iff.mp member with earlier | rfl
      · exact returned caller earlier feature
      · intro same
        cases same
  | lock => exact sound.lock
  | turn choice lost => exact sound.turn (acceptor.turn_cases choice lost)
  | header index frame => exact sound.header index frame
  | drop caller => exact sound.drop caller

/-- In every run, streams are where they belong. -/
theorem streams_in_place (decode : Bytes → Except String FeaturePayload) (inputs : List Input) :
    Run.Throughout (step decode) start Sound inputs :=
  Run.invariant_always sound_start (fun _ input sound => sound.step input) inputs

/-! ## Nobody waits behind a header that does not arrive -/

/-- The number of turns that a caller takes with an input. -/
def turnsOf (acceptor : Acceptor) : Input → Nat
  | .turn _ _ => if acceptor.callers.any Caller.isAccepting then 1 else 0
  | _ => 0

/-- The number of turns that callers take in a run. -/
def turns (decode : Bytes → Except String FeaturePayload) (acceptor : Acceptor) : List Input → Nat
  | [] => 0
  | input :: later => acceptor.turnsOf input + (acceptor.step decode input).turns decode later

/-- A caller has got the stream. -/
def Got (acceptor : Acceptor) (feature : FeatureStream) : Prop :=
  ∃ caller ∈ acceptor.callers, got caller = some feature

/-- The header of a stream has been read, and the connection is open. -/
structure Ready (acceptor : Acceptor) (stream : Nat) (feature : FeatureStream) : Prop where
  read : ⟨stream, some (.ok feature)⟩ ∈ acceptor.pendingHeaders
  openStill : acceptor.closed = none

section Progress

variable {stream : Nat} {feature : FeatureStream}

/-- A caller that has returned keeps what it got. -/
theorem Got.step (found : Got acceptor feature) (input : Input) :
    Got (acceptor.step decode input) feature := by
  -- Only callers that have not returned change.
  have replaced : ∀ (before after : List Caller) (caller other : Caller),
      acceptor.callers = before ++ caller :: after → got caller = none ∨ got other = got caller →
        ∃ each ∈ before ++ other :: after, got each = some feature := by
    intro before after caller other callers harmless
    obtain ⟨each, member, same⟩ := found
    rw [callers] at member
    rcases List.mem_append.mp member with earlier | rest
    · exact ⟨each, List.mem_append_left _ earlier, same⟩
    · rcases List.mem_cons.mp rest with rfl | later
      · refine ⟨other, List.mem_append_right _ List.mem_cons_self, ?_⟩
        rcases harmless with nothing | kept
        · rw [nothing] at same
          cases same
        · rw [kept, same]
      · exact ⟨each, List.mem_append_right _ (List.mem_cons_of_mem _ later), same⟩
  cases input with
  | opens =>
    simp only [Acceptor.step]
    split <;> exact found
  | closes reason => exact found
  | call =>
    obtain ⟨each, member, same⟩ := found
    exact ⟨each, List.mem_append_left _ member, same⟩
  | lock =>
    rcases acceptor.lock_cases with same | ⟨before, after, callers, -, same⟩
    · simp only [Acceptor.step, same]
      exact found
    · simp only [Acceptor.step, same, Got]
      exact replaced before after .waiting .accepting callers (Or.inl rfl)
  | turn choice lost =>
    have turned := acceptor.turn_cases choice lost
    simp only [Acceptor.step]
    generalize acceptor.turn choice lost = after at turned
    cases turned with
    | idle free => exact found
    | waits running => exact found
    | closed before after reason callers known => exact replaced _ _ _ _ callers (Or.inl rfl)
    | delivered before after first last stream feature callers tasks =>
      exact replaced _ _ _ _ callers (Or.inl rfl)
    | refused first last stream error tasks => exact found
    | accepted stream later arrived room running => exact found
    | lost before after reason callers running => exact replaced _ _ _ _ callers (Or.inl rfl)
  | header index frame =>
    simp only [Acceptor.step, Acceptor.header]
    split <;> exact found
  | drop caller =>
    rcases modify_cases acceptor.callers caller with same | ⟨before, holder, after, callers, same⟩
    · simp only [Acceptor.step, same]
      exact found
    · simp only [Acceptor.step, same, Got]
      exact replaced before after holder holder.drop callers (Or.inr (got_drop holder))

/-- While the header of a stream waits to be handed out, every turn that a caller takes leaves one
task less. -/
theorem Ready.step (ready : Ready acceptor stream feature) {input : Input}
    (stays : ∀ reason, input ≠ .closes reason) :
    Got (acceptor.step decode input) feature ∨
      Ready (acceptor.step decode input) stream feature ∧
        (acceptor.step decode input).pendingHeaders.length + acceptor.turnsOf input ≤
          acceptor.pendingHeaders.length := by
  obtain ⟨read, openStill⟩ := ready
  have busy : ¬ ∀ task ∈ acceptor.pendingHeaders, task.result = none :=
    fun running => by cases running _ read
  have most : ∀ input, acceptor.turnsOf input ≤ 1 := by
    intro input
    unfold turnsOf
    split
    · split <;> decide
    · decide
  cases input with
  | opens =>
    refine Or.inr ?_
    simp only [Acceptor.step]
    split
    · exact ⟨⟨read, openStill⟩, le_refl _⟩
    · exact ⟨⟨read, openStill⟩, le_refl _⟩
  | closes reason => exact absurd rfl (stays reason)
  | call => exact Or.inr ⟨⟨read, openStill⟩, le_refl _⟩
  | lock =>
    refine Or.inr ?_
    rcases acceptor.lock_cases with same | ⟨before, after, callers, -, same⟩
    · simp only [Acceptor.step, same]
      exact ⟨⟨read, openStill⟩, le_refl _⟩
    · simp only [Acceptor.step, same]
      exact ⟨⟨read, openStill⟩, le_refl _⟩
  | turn choice lost =>
    have turned := acceptor.turn_cases choice lost
    have counted := most (.turn choice lost)
    simp only [Acceptor.step]
    generalize acceptor.turn choice lost = after at turned
    cases turned with
    | idle free =>
      refine Or.inr ⟨⟨read, openStill⟩, ?_⟩
      have nobody : acceptor.callers.any Caller.isAccepting = false :=
        List.any_eq_false.mpr fun caller member => by simp [free caller member]
      simp [turnsOf, nobody]
    | waits running => exact absurd running busy
    | closed before after reason callers known =>
      rw [openStill] at known
      cases known
    | delivered before after first last other given callers tasks =>
      rw [tasks] at read ⊢
      rcases List.mem_append.mp read with earlier | rest
      · refine Or.inr ⟨⟨List.mem_append_left _ earlier, openStill⟩, ?_⟩
        simp only [List.length_append, List.length_cons]
        omega
      · rcases List.mem_cons.mp rest with this | later
        · cases this
          exact Or.inl ⟨.returned (.ok feature), List.mem_append_right _ List.mem_cons_self, rfl⟩
        · refine Or.inr ⟨⟨List.mem_append_right _ later, openStill⟩, ?_⟩
          simp only [List.length_append, List.length_cons]
          omega
    | refused first last other error tasks =>
      rw [tasks] at read ⊢
      refine Or.inr ⟨⟨?_, openStill⟩, ?_⟩
      · rcases List.mem_append.mp read with earlier | rest
        · exact List.mem_append_left _ earlier
        · rcases List.mem_cons.mp rest with this | later
          · cases this
          · exact List.mem_append_right _ later
      · simp only [List.length_append, List.length_cons]
        omega
    | accepted other later arrived room running => exact absurd running busy
    | lost before after reason callers running => exact absurd running busy
  | header index frame =>
    refine Or.inr ?_
    simp only [Acceptor.step, Acceptor.header]
    split
    · rename_i other found
      obtain ⟨first, last, tasks, rfl⟩ := List.split_of_getElem? found
      rw [tasks] at read ⊢
      rw [JoinSet.finish_split]
      refine ⟨⟨?_, openStill⟩, by simp [turnsOf]⟩
      rcases List.mem_append.mp read with earlier | rest
      · exact List.mem_append_left _ earlier
      · rcases List.mem_cons.mp rest with this | later
        · cases this
        · exact List.mem_append_right _ (List.mem_cons_of_mem _ later)
    · exact ⟨⟨read, openStill⟩, le_refl _⟩
  | drop caller => exact Or.inr ⟨⟨read, openStill⟩, le_refl _⟩

theorem Got.run (found : Got acceptor feature) (later : List Input) :
    Got (Run.exec (Acceptor.step decode) acceptor later) feature := by
  induction later generalizing acceptor with
  | nil => exact found
  | cons input later ih => exact ih (Got.step found input)

/-- A stream whose header has been read is handed out once callers have taken as many turns as there
are tasks. -/
theorem Ready.run (ready : Ready acceptor stream feature) {later : List Input}
    (stays : ∀ reason, .closes reason ∉ later)
    (enough : acceptor.pendingHeaders.length ≤ acceptor.turns decode later) :
    Got (Run.exec (Acceptor.step decode) acceptor later) feature := by
  induction later generalizing acceptor with
  | nil =>
    have empty : acceptor.pendingHeaders = [] := List.length_eq_zero_iff.mp (Nat.le_zero.mp enough)
    have member := ready.read
    rw [empty] at member
    cases member
  | cons input later ih =>
    have continues : Got (acceptor.step decode input) feature ∨ _ :=
      ready.step fun reason same => stays reason (same ▸ List.mem_cons_self)
    rcases continues with found | ⟨still, fewer⟩
    · exact Got.run found later
    · refine ih still (fun reason member => stays reason (List.mem_cons_of_mem _ member)) ?_
      simp only [turns] at enough
      omega

/-- While the connection stays open, a stream whose header has been read is handed out within eight
turns of the callers, whatever the other streams do and whoever gives up waiting. -/
theorem handed_out_in_eight_turns {inputs later : List Input}
    (ready : Ready (Run.exec (Acceptor.step decode) start inputs) stream feature)
    (stays : ∀ reason, .closes reason ∉ later)
    (enough : 8 ≤ (Run.exec (Acceptor.step decode) start inputs).turns decode later) :
    Got (Run.exec (Acceptor.step decode) start (inputs ++ later)) feature := by
  have sound : Run.Throughout (Acceptor.step decode) start Sound inputs :=
    Run.invariant_always sound_start (fun _ input sound => sound.step input) inputs
  rw [Run.exec_append]
  exact ready.run stays (sound.last.bounded.trans enough)

end Progress

/-- The peer opens eight streams, which a caller accepts. -/
def eightStreams : List Input :=
  List.replicate 8 .opens ++ [.call, .lock] ++ List.replicate 8 (.turn 0 none)

/-- That caller gives up; a later one waits for longer than the stream needs. -/
def nextCallers : List Input :=
  [.drop 0, .call, .lock, .turn 0 none, .call, .lock] ++ List.replicate 7 (.turn 0 none)

/-- The header that arrives on the last of them. -/
def lastHeader : FeaturePayload := ⟨"clipboard", [1, 2], 1, 0, 3, 1, "sync"⟩

/-- What the frames of the peer say. -/
def sayLast (_ : Bytes) : Except String FeaturePayload := .ok lastHeader

/-- One header of eight arrives: its stream is handed out, though the caller that accepted it has
given up and the seven before it never arrive. -/
theorem handed_out_behind_seven :
    Got (Run.exec (step sayLast) start (eightStreams ++ [.header 7 (some (.ok []))] ++ nextCallers))
      (.ofHeader lastHeader 7) := by
  have reached : Run.exec (step sayLast) start (eightStreams ++ [.header 7 (some (.ok []))]) =
      ⟨8, [], none, (List.range 7).map (fun stream => ⟨stream, none⟩) ++
        [⟨7, some (.ok (.ofHeader lastHeader 7))⟩], [.accepting], []⟩ := by rfl
  have ready : Ready (Run.exec (step sayLast) start (eightStreams ++ [.header 7 (some (.ok []))])) 7
      (.ofHeader lastHeader 7) := by
    rw [reached]
    exact ⟨List.mem_append_right _ List.mem_cons_self, rfl⟩
  refine handed_out_in_eight_turns ready ?_ ?_
  · intro reason
    simp [nextCallers]
  · rw [reached]
    decide

end Acceptor

/-! ## From one end to the other -/

/-- What `open_feature_stream_versioned` has sent when it returns a header. -/
structure Opened (platform : Platform) (session : Session) (featureId : String)
    (major low high : UInt32) (operation : String) (payload : Bytes) (header : FeaturePayload)
    (now : List Moment) : Prop where
  fields : header = ⟨featureId, payload, major, low, high, header.streamId, operation⟩
  valid : validHeader header = true
  sent : Asked now (.send session.conn (platform.encodeFeaturePayload header) featureHeaderLimit)

/-- `open_feature_stream_versioned` sends a header that passes the checks of the other end. -/
theorem shakes_openFeatureStreamVersioned {self : Runtime} (session : Session) (featureId : String)
    (major low high : UInt32) (operation : String) (payload : Bytes) :
    Runtime.Shakes (fun _ => True) (fun now header =>
      Opened self.platform session featureId major low high operation payload header now) []
      (self.openFeatureStreamVersioned session featureId major low high operation payload) := by
  refine ensures_bind ensures_passed fun _ _ passed => ?_
  refine ensures_bind (Runtime.shakes_ask rfl) fun _ opened _ => ?_
  refine ensures_bind ensures_succeeded fun _ _ _ => ?_
  refine ensures_bind (Runtime.shakes_ask rfl) fun _ number _ => ?_
  refine ensures_bind (Runtime.shakes_sent trivial) fun _ sent known => ?_
  refine ensures_bind_since ensures_succeeded fun _ _ grown _ => ?_
  refine ensures_pure ⟨rfl, ?_, known.mono grown.subset⟩
  have named : ((max number 1 : UInt64) == 0) = false :=
    beq_eq_false_iff_ne.mpr (max_one_ne_zero number)
  simp only [Bool.or_eq_false_iff] at passed
  simp [validHeader, passed, named]

namespace Acceptor

/-- A stream opened at one end is handed out at the other with what it was opened with, once its
header has arrived and callers have taken eight turns. -/
theorem opened_stream_is_handed_out {self : Runtime} {decode : Bytes → Except String FeaturePayload}
    {session : Session} {featureId operation : String} {major low high : UInt32} {payload : Bytes}
    {moments : List Moment} {header : FeaturePayload}
    (returns : Program.Returns (self.openFeatureStreamVersioned session featureId major low high
      operation payload).run moments (.ok header))
    (decodes : decode (self.platform.encodeFeaturePayload header) = .ok header)
    {inputs later : List Input} {index stream : Nat}
    (reading : (Run.exec (step decode) start inputs).pendingHeaders[index]? = some ⟨stream, none⟩)
    (openStill : (Run.exec (step decode) start inputs).closed = none)
    (stays : ∀ reason, .closes reason ∉ later)
    (enough : 8 ≤ (Run.exec (step decode) start (inputs ++
      [.header index (some (.ok (self.platform.encodeFeaturePayload header)))])).turns decode
        later) :
    Asked moments (.send session.conn (self.platform.encodeFeaturePayload header)
      featureHeaderLimit) ∧
    Got (Run.exec (step decode) start (inputs ++
        [.header index (some (.ok (self.platform.encodeFeaturePayload header)))] ++ later))
      ⟨featureId, payload, major, low, high, header.streamId, operation, stream⟩ := by
  obtain ⟨fields, valid, sent⟩ := (shakes_openFeatureStreamVersioned session featureId major low
    high
    operation payload).returns returns (fun _ _ _ => trivial) header rfl
  refine ⟨sent, ?_⟩
  have read : readFeatureHeader decode stream
      (some (.ok (self.platform.encodeFeaturePayload header))) =
        (.ok ⟨featureId, payload, major, low, high, header.streamId, operation, stream⟩, []) := by
    simp only [readFeatureHeader, headerOf, Option.map_some, bind, Except.bind, decodes,
      Except.mapError, valid, if_true]
    rw [fields]
    rfl
  have arrives : Ready (Run.exec (step decode) start (inputs ++
      [.header index (some (.ok (self.platform.encodeFeaturePayload header)))])) stream
        ⟨featureId, payload, major, low, high, header.streamId, operation, stream⟩ := by
    rw [Run.exec_concat]
    obtain ⟨first, last, tasks, rfl⟩ := List.split_of_getElem? reading
    simp only [step, Acceptor.header, reading]
    refine ⟨?_, openStill⟩
    rw [tasks, JoinSet.finish_split, read]
    exact List.mem_append_right _ List.mem_cons_self
  have sound : Run.Throughout (Acceptor.step decode) start Sound _ :=
    Run.invariant_always sound_start (fun _ input sound => sound.step input)
      (inputs ++ [.header index (some (.ok (self.platform.encodeFeaturePayload header)))])
  rw [Run.exec_append]
  exact arrives.run stays (sound.last.bounded.trans enough)

/-- The device that opens the stream. -/
def openingRuntime : Runtime := .sample (.sample [] ⟨none, []⟩) "alice" 1

/-- The session it opens it on. -/
def openingSession : Session := .sample "bob" "alice" 1 .control 7 false

/-- A stream that one end opens is handed out at the other. -/
theorem opened_stream_is_handed_out_sample :
    Got (Run.exec (step sayLast) start (eightStreams ++ [.header 7 (some (.ok
        (openingRuntime.platform.encodeFeaturePayload lastHeader)))] ++ nextCallers))
      ⟨"clipboard", [1, 2], 1, 0, 3, 1, "sync", 7⟩ := by
  have outcome : (Program.eval openingRuntime.handle (fun _ => Call.smooth) 0
      (openingRuntime.openFeatureStreamVersioned openingSession "clipboard" 1 0 3 "sync"
        [1, 2]).run (World.fresh .empty)).map (fun run => run.2.1.toOption) =
        some (some lastHeader) := by decide +kernel
  obtain ⟨⟨moments, result, after⟩, evaluated, shown⟩ := Option.map_eq_some_iff.mp outcome
  cases result with
  | error error => cases shown
  | ok header =>
    obtain rfl : header = lastHeader := Option.some.inj shown
    have reached : Run.exec (step sayLast) start eightStreams =
      ⟨8, [], none, (List.range 8).map (fun stream => ⟨stream, none⟩), [.accepting], []⟩ := by rfl
    refine (opened_stream_is_handed_out (Program.returns_of_eval evaluated).1 rfl ?_ ?_
      (by simp [nextCallers]) (by decide +kernel)).2
    · rw [reached]
      rfl
    · rw [reached]

end Acceptor

end ArcRelay
