import ArcRelay.Verif.Discovery

/-!
# Discovery calls that overlap

Any number of calls of the discovery service, interleaved at their locks. `emit`
reads the two maps one after the other and publishes later, so a call that began
to read earlier can publish later and put back an older list. In a run in which
the calls publish in the order in which they began to read, the last published
list shows every device of the two maps once all calls have returned.
-/

namespace ArcRelay

open System (momentsOf mem_momentsOf)

namespace Discovery

/-- A section as a call remembers it. -/
abbrev Moment := Program.Moment Discovery Section.Reply

/-- A section as the history of all calls remembers it. -/
abbrev Record := Entry Section.Reply Discovery Operation

/-- The service and the calls that run on it. -/
abbrev Calls := Pool Section.Reply Unit Discovery Operation

/-- The section with which `emit` begins. -/
def Section.begins : Section → Bool
  | .readAuthenticated => true
  | _ => false

/-- The section with which `emit` ends. -/
def Section.publishes : Section → Bool
  | .publish _ => true
  | _ => false

/-- The sections of `emit`. -/
def Section.emits : Section → Bool
  | .readAuthenticated | .readMdns | .publish _ => true
  | _ => false

/-- Publishing is a section of `emit`. -/
theorem Section.emits_of_publishes {request : Section} (publishes : request.publishes = true) :
    request.emits = true := by
  cases request <;> first | rfl | cases publishes

/-- Beginning is a section of `emit`. -/
theorem Section.emits_of_begins {request : Section} (begins : request.begins = true) :
    request.emits = true := by
  cases request <;> first | rfl | cases begins

/-- The section has reported a change. -/
def Section.changes : (request : Section) → request.Reply → Bool
  | .mergeAuthenticated _, changed => changed
  | .removeAuthenticated _, changed => changed
  | .mergeMdns _, changed => changed
  | .removeMdns _, changed => changed
  | .insertService _ _, _ | .removeService _, _ | .readAuthenticated, _ | .readMdns, _
  | .publish _, _ => false

/-- A call begins to emit. -/
abbrev Begins (moment : Moment) : Prop := moment.call.begins = true

/-- A call publishes. -/
abbrev Publishes (moment : Moment) : Prop := moment.call.publishes = true

/-- A change that a call has made. -/
abbrev Changes (moment : Moment) : Prop := moment.call.changes moment.reply = true

/-! ## What a call has done when it returns -/

/-- A call has reported no change and not emitted, or it ended by emitting. -/
inductive Closed : List Moment → Prop
  | silent (past : List Moment) (quiet : ∀ moment ∈ past, moment.call.emits = false)
    (unchanged : ∀ moment ∈ past, ¬ Changes moment) : Closed past
  | emitted (before : List Moment) (first second third : Discovery) (authenticated mdns : PeerTable)
    (quiet : ∀ moment ∈ before, moment.call.emits = false) :
    Closed (before ++ [⟨first, .readAuthenticated, authenticated⟩, ⟨second, .readMdns, mdns⟩,
      ⟨third, .publish (ArcRelay.emitted authenticated mdns), ()⟩])

/-- Nothing is required of the sections. -/
def unconstrained : Program.Contract Discovery Section.Reply := ⟨fun _ _ => True, fun _ _ => True⟩

/-- The call is closed when it returns. -/
abbrev Closes (past : List Moment) (call : Task) : Prop :=
  call.Ensures unconstrained (fun past _ => Closed past) past

/-- `emit` closes a call. -/
theorem closes_emit {past : List Moment} (quiet : ∀ moment ∈ past, moment.call.emits = false) :
    Closes past emit := by
  refine ⟨trivial, fun first authenticated _ => ⟨trivial, fun second mdns _ =>
    ⟨trivial, fun third _ _ => ?_⟩⟩⟩
  have closed := Closed.emitted past first second third authenticated mdns quiet
  simpa [Program.Ensures] using closed

theorem closes_emitIf {past : List Moment} {changed : Bool}
    (quiet : ∀ moment ∈ past, moment.call.emits = false)
    (unchanged : changed = false → ∀ moment ∈ past, ¬ Changes moment) :
    Closes past (emitIf changed) := by
  cases changed with
  | true => exact closes_emit quiet
  | false => exact .silent past quiet (unchanged rfl)

variable (localId : DeviceId)

/-- Every call is closed when it returns. -/
theorem closes_task (operation : Operation) : Closes [] (task localId operation) := by
  cases operation with
  | resolve fullname decoded =>
    cases decoded with
    | none => exact .silent [] (by simp) (by simp)
    | some peer =>
      simp only [task, resolve]
      split
      · exact .silent [] (by simp) (by simp)
      · refine ⟨trivial, fun _ _ _ => ⟨trivial, fun _ changed _ => closes_emitIf ?_ ?_⟩⟩
        · simp [Section.emits]
        · rintro rfl
          simp [Changes, Section.changes]
  | remove fullname =>
    refine ⟨trivial, fun _ service _ => ?_⟩
    cases service with
    | none => exact .silent _ (by simp [Section.emits]) (by simp [Changes, Section.changes])
    | some id =>
      refine ⟨trivial, fun _ removed _ => closes_emitIf ?_ ?_⟩
      · simp [Section.emits]
      · rintro rfl
        simp [Changes, Section.changes]
  | observeAuthenticated peer =>
    simp only [task, observeAuthenticated]
    split
    · exact .silent [] (by simp) (by simp)
    · refine ⟨trivial, fun _ changed _ => closes_emitIf ?_ ?_⟩
      · simp [Section.emits]
      · rintro rfl
        simp [Changes, Section.changes]
  | forgetAuthenticated id =>
    refine ⟨trivial, fun _ removed _ => closes_emitIf ?_ ?_⟩
    · simp [Section.emits]
    · rintro rfl
      simp [Changes, Section.changes]
  | refresh => exact closes_emit (by simp)

/-! ## Which devices are shown -/

/-- Two states have records of the same devices. -/
structure SameKeys (left right : Discovery) : Prop where
  authenticated : ∀ id, (left.authenticatedPeers.find? id).isSome =
    (right.authenticatedPeers.find? id).isSome
  mdns : ∀ id, (left.mdnsPeers.find? id).isSome = (right.mdnsPeers.find? id).isSome

theorem SameKeys.refl (state : Discovery) : SameKeys state state := ⟨fun _ => rfl, fun _ => rfl⟩

theorem SameKeys.trans {first second third : Discovery} (one : SameKeys first second)
    (two : SameKeys second third) : SameKeys first third :=
  ⟨fun id => (one.authenticated id).trans (two.authenticated id),
    fun id => (one.mdns id).trans (two.mdns id)⟩

theorem isSome_find?_merged {peers : PeerTable} {peer : PeerAdvertisement}
    (silent : (mergeObservedPeer peers peer).1 = false) (id : DeviceId) :
    (peers.find? id).isSome = ((mergeObservedPeer peers peer).2.find? id).isSome := by
  obtain ⟨observed, known, -⟩ := mergeObservedPeer_fst.mp silent
  rw [find?_mergeObservedPeer known]
  split
  · rename_i same
    rw [← same, known]
    rfl
  · rfl

/-- A section that reports no change leaves the keys. -/
theorem sameKeys_answer {state : Discovery} {request : Section}
    (unchanged : request.changes (answer state request).1 = false) :
    SameKeys state (answer state request).2 := by
  cases request with
  | mergeAuthenticated peer => exact ⟨isSome_find?_merged unchanged, fun _ => rfl⟩
  | removeAuthenticated id =>
    simp only [answer, deleteWhere_absent unchanged]
    exact .refl state
  | mergeMdns peer => exact ⟨fun _ => rfl, isSome_find?_merged unchanged⟩
  | removeMdns id =>
    simp only [answer, deleteWhere_absent unchanged]
    exact .refl state
  | insertService fullname id => exact ⟨fun _ => rfl, fun _ => rfl⟩
  | removeService fullname => exact ⟨fun _ => rfl, fun _ => rfl⟩
  | readAuthenticated => exact .refl state
  | readMdns => exact .refl state
  | publish peers => exact ⟨fun _ => rfl, fun _ => rfl⟩

theorem snapshot_answer {state : Discovery} {request : Section}
    (quiet : request.publishes = false) : (answer state request).2.snapshot = state.snapshot := by
  cases request with
  | publish peers => cases quiet
  | _ => rfl

/-- The snapshot shows exactly the devices of the two maps. -/
def Shown (state : Discovery) : Prop :=
  ∀ id, (∃ peer ∈ state.snapshot, peer.deviceId = id) ↔
    (state.authenticatedPeers.find? id).isSome ∨ (state.mdnsPeers.find? id).isSome

theorem device_emitted_iff (authenticated mdns : PeerTable) (id : DeviceId) :
    (∃ peer ∈ emitted authenticated mdns, peer.deviceId = id) ↔
      (authenticated.find? id).isSome ∨ (mdns.find? id).isSome := by
  have found : (∃ peer ∈ emitted authenticated mdns, peer.deviceId = id) ↔
      ((mergedPeers authenticated mdns).find? id).isSome := by
    simp only [emitted, List.mem_insertionSort, Option.isSome_iff_exists, Table.find?_eq_some]
  rw [found, find?_mergedPeers, Option.isSome_merge, Bool.or_eq_true]

/-! ## The order of publishing -/

/-- The history from the section on with which a call began to emit. -/
def sinceBegin (history : List Record) (index : Nat) : List Record :=
  history.dropWhile fun entry => !(entry.index == index && entry.moment.call.begins)

/-- A call that began to emit later has already published. -/
def overtaken (history : List Record) (index : Nat) : Bool :=
  (sinceBegin history index).any fun other =>
    other.index != index && other.moment.call.begins &&
      (sinceBegin history index).any fun shown =>
        shown.index == other.index && shown.moment.call.publishes

/-- A call publishes only while no call that began to emit later has published. -/
def inOrder (calls : Calls) : Pool.Input Section.Reply Operation Empty → Bool
  | .resume index _ => match (calls.jobs[index]?).map Job.rest with
    | some (.await (.publish _) _) => !overtaken calls.history index
    | _ => true
  | _ => true

/-- What began before is seen by a later look at the history. -/
theorem overtaken_of_split {before later : List Record} {own other shown : Record}
    (begins : Begins own.moment) (foreign : other.index ≠ own.index)
    (otherBegins : Begins other.moment) (same : shown.index = other.index)
    (publishes : Publishes shown.moment) (otherLater : other ∈ later)
    (shownLater : shown ∈ later) : overtaken (before ++ own :: later) own.index = true := by
  have kept : ∀ entry ∈ later, entry ∈ sinceBegin (before ++ own :: later) own.index := by
    intro entry member
    have suffix : own :: later <:+ sinceBegin (before ++ own :: later) own.index := by
      unfold sinceBegin
      induction before with
      | nil => simp [begins]
      | cons first before ih =>
        rw [List.cons_append, List.dropWhile_cons]
        split
        · exact ih
        · exact (List.suffix_append _ _).trans (List.suffix_cons _ _)
    exact suffix.subset (List.mem_cons_of_mem _ member)
  unfold overtaken
  simp only [List.any_eq_true, Bool.and_eq_true, bne_iff_ne, beq_iff_eq]
  exact ⟨other, kept other otherLater, ⟨foreign, otherBegins⟩, shown, kept shown shownLater, same,
    publishes⟩

/-- What the history of the calls says about the service. -/
structure Consistent (calls : Calls) : Prop where
  /-- Since an entry without changes after it, the keys are the same. -/
  keys : ∀ before entry later, calls.history = before ++ entry :: later →
    (∀ other ∈ entry :: later, ¬ Changes other.moment) → SameKeys entry.moment.world calls.world
  unchanged : (∀ entry ∈ calls.history, ¬ Changes entry.moment) → SameKeys empty calls.world
  snapshot : ∀ before entry later peers, calls.history = before ++ entry :: later →
    entry.moment.call = .publish peers →
      (∀ other ∈ later, ¬ Publishes other.moment) → calls.world.snapshot = peers
  unpublished : (∀ entry ∈ calls.history, ¬ Publishes entry.moment) →
    calls.world.snapshot = []
  ordered : ∀ before entry later, calls.history = before ++ entry :: later →
    Publishes entry.moment → overtaken before entry.index = false

/-- A step in order keeps the history consistent. -/
theorem consistent_step {calls : Calls} {input : Pool.Input Section.Reply Operation Empty}
    (consistent : Consistent calls) (order : inOrder calls input = true) :
    Consistent ((system localId).step calls input) := by
  have stepped := (system localId).step_cases calls input
  generalize (system localId).step calls input = after at stepped ⊢
  cases stepped with
  | start operation =>
    exact ⟨consistent.keys, consistent.unchanged, consistent.snapshot, consistent.unpublished,
      consistent.ordered⟩
  | idle index proposal => exact consistent
  | disturb event => nomatch event
  | call index proposal job request next reply world found awaiting answered =>
    have effect : answer calls.world request = (reply, world) := Option.some.inj answered
    have keys : ¬ Changes ⟨calls.world, request, reply⟩ → SameKeys calls.world world := by
      have kept : request.changes (answer calls.world request).1 = false →
          SameKeys calls.world (answer calls.world request).2 := sameKeys_answer
      rw [effect] at kept
      exact fun unchanged => kept (by simpa using unchanged)
    have quiet : ¬ request.publishes = true → world.snapshot = calls.world.snapshot := by
      have kept : request.publishes = false →
          (answer calls.world request).2.snapshot = calls.world.snapshot := snapshot_answer
      rw [effect] at kept
      exact fun other => kept (by simpa using other)
    have newest : ∀ list : List Record, ⟨index, job.operation, ⟨calls.world, request, reply⟩⟩ ∈
        list ++ [⟨index, job.operation, ⟨calls.world, request, reply⟩⟩] := by simp
    refine ⟨?_, ?_, ?_, ?_, ?_⟩
    · intro before entry later same unchanged
      rcases List.split_concat same with ⟨rfl, rfl, rfl⟩ | ⟨earlier, rfl, split⟩
      · exact keys (unchanged _ List.mem_cons_self)
      · rw [← List.cons_append] at unchanged
        have old := consistent.keys before entry earlier split fun other member =>
          unchanged other (List.mem_append_left _ member)
        exact old.trans (keys (unchanged _ (newest _)))
    · intro unchanged
      have old := consistent.unchanged fun entry member =>
        unchanged entry (List.mem_append_left _ member)
      exact old.trans (keys (unchanged _ (newest _)))
    · intro before entry later peers same publishes others
      rcases List.split_concat same with ⟨rfl, rfl, rfl⟩ | ⟨earlier, rfl, split⟩
      · obtain rfl : request = .publish peers := publishes
        cases effect
        rfl
      · rw [quiet (others _ (newest _))]
        exact consistent.snapshot before entry earlier peers split publishes
          fun other member => others other (List.mem_append_left _ member)
    · intro others
      rw [quiet (others _ (newest _))]
      exact consistent.unpublished fun entry member => others entry (List.mem_append_left _ member)
    · intro before entry later same publishes
      rcases List.split_concat same with ⟨rfl, rfl, rfl⟩ | ⟨earlier, rfl, split⟩
      · cases request with
        | publish peers => simpa [inOrder, found, awaiting] using order
        | _ => cases publishes
      · exact consistent.ordered before entry earlier split publishes

theorem consistent_initial : Consistent (System.initial empty) where
  keys := by simp [System.initial]
  unchanged := fun _ => .refl _
  snapshot := by simp [System.initial]
  unpublished := fun _ => rfl
  ordered := by simp [System.initial]

/-! ## When all calls have returned -/

section Returned

variable {localId} {calls : Calls} (sound : (system localId).Sound calls)
  (recorded : System.Recorded calls) (consistent : Consistent calls)
  (returned : ∀ job ∈ calls.jobs, ∃ value, job.rest = .done value)

include sound recorded in
theorem reply_eq {entry : Record} (member : entry ∈ calls.history) :
    entry.moment.reply = (answer entry.moment.world entry.moment.call).1 := by
  obtain ⟨job, found, -⟩ := recorded.known entry member
  have past : entry.moment ∈ job.past := by
    rw [recorded.past _ job found]
    exact mem_momentsOf.mpr ⟨entry, member, rfl, rfl⟩
  obtain ⟨_, _, answered⟩ := (sound job (List.mem_of_getElem? found)).2 _ past
  exact (congrArg Prod.fst (Option.some.inj answered)).symm

include sound recorded returned in
theorem closed_momentsOf {entry : Record} (member : entry ∈ calls.history) :
    Closed (momentsOf calls.history entry.index) := by
  obtain ⟨job, found, -⟩ := recorded.known entry member
  have present := List.mem_of_getElem? found
  obtain ⟨value, ended⟩ := returned job present
  have leads := (sound job present).1
  rw [ended] at leads
  rw [← recorded.past _ job found]
  exact (closes_task localId job.operation).returns leads fun _ _ _ => trivial

include sound recorded returned in
/-- A call that made one section of `emit` began and ended one. -/
theorem emitted_of_emits {entry : Record} (member : entry ∈ calls.history)
    (emits : entry.moment.call.emits = true) :
    ∃ before first second third authenticated mdns,
      momentsOf calls.history entry.index =
        before ++ [⟨first, .readAuthenticated, authenticated⟩, ⟨second, .readMdns, mdns⟩,
          ⟨third, .publish (emitted authenticated mdns), ()⟩] := by
  have own : entry.moment ∈ momentsOf calls.history entry.index :=
    mem_momentsOf.mpr ⟨entry, member, rfl, rfl⟩
  have closed := closed_momentsOf sound recorded returned member
  generalize momentsOf calls.history entry.index = past at own closed
  cases closed with
  | silent past quiet unchanged => simp [quiet _ own] at emits
  | emitted before first second third authenticated mdns quiet =>
    exact ⟨before, first, second, third, authenticated, mdns, rfl⟩

include sound recorded returned in
/-- After the last section that began to emit, nothing was changed. -/
theorem unchanged_since {before later : List Record} {last entry : Record}
    (split : calls.history = before ++ last :: later)
    (final : ∀ other ∈ later, ¬ Begins other.moment) (member : entry ∈ later) :
    ¬ Changes entry.moment := by
  have inside : entry ∈ calls.history := by simp [split, member]
  have own : entry.moment ∈ momentsOf later entry.index :=
    mem_momentsOf.mpr ⟨entry, member, rfl, rfl⟩
  have suffix : momentsOf later entry.index <:+
      momentsOf calls.history entry.index := by
    rw [split, List.append_cons, System.momentsOf_append]
    exact List.suffix_append _ _
  have unmarked : ∀ moment ∈ momentsOf later entry.index,
      ¬ Begins moment := by
    intro moment remembered
    obtain ⟨other, here, -, rfl⟩ := mem_momentsOf.mp remembered
    exact final other here
  have closed := closed_momentsOf sound recorded returned inside
  generalize momentsOf calls.history entry.index = past at suffix closed
  cases closed with
  | silent past quiet unchanged => exact unchanged _ (suffix.subset own)
  | emitted before first second third authenticated mdns quiet =>
    have behind := List.suffix_of_unmarked Begins suffix rfl unmarked
    have inside := behind.subset own
    simp only [List.mem_cons, List.not_mem_nil, or_false] at inside
    rcases inside with same | same <;> rw [same] <;> exact Bool.false_ne_true

include sound recorded consistent returned in
/-- The last call that began to emit published last. -/
theorem index_of_last_published {before early late : List Record} {last shown other : Record}
    (split : calls.history = before ++ last :: (early ++ shown :: late))
    (begins : Begins last.moment) (published : Publishes shown.moment)
    (final : ∀ entry ∈ early ++ shown :: late, ¬ Begins entry.moment)
    (finalPublished : ∀ entry ∈ late, ¬ Publishes entry.moment)
    (member : other ∈ early ++ shown :: late) (same : other.index = last.index)
    (otherPublished : Publishes other.moment) : shown.index = last.index := by
  by_contra foreign
  have inside : shown ∈ calls.history := by simp [split]
  obtain ⟨_, first, second, third, authenticated, mdns, whole⟩ :=
    emitted_of_emits sound recorded returned inside (Section.emits_of_publishes published)
  have began : (⟨first, .readAuthenticated, authenticated⟩ : Moment) ∈
      momentsOf calls.history shown.index := by simp [whole]
  obtain ⟨own, ownInside, ownIndex, ownMoment⟩ := mem_momentsOf.mp began
  have ownBegins : Begins own.moment := by
    rw [ownMoment]
    rfl
  -- the call that published last began before the last one that began
  have earlier : own ∈ before := by
    rw [split] at ownInside
    rcases List.mem_append.mp ownInside with here | rest
    · exact here
    · rcases List.mem_cons.mp rest with rfl | later
      · exact absurd ownIndex.symm foreign
      · exact absurd ownBegins (final own later)
  obtain ⟨front, middle, rfl⟩ := List.append_of_mem earlier
  have early_member : other ∈ early := by
    rcases List.mem_append.mp member with here | rest
    · exact here
    · rcases List.mem_cons.mp rest with rfl | later
      · exact absurd same foreign
      · exact absurd otherPublished (finalPublished other later)
  have order := consistent.ordered (front ++ own :: (middle ++ last :: early)) shown late
    (by simp [split]) published
  have out : overtaken (front ++ own :: (middle ++ last :: early)) own.index = true :=
    overtaken_of_split ownBegins (ownIndex ▸ Ne.symm foreign) begins same otherPublished
      (List.mem_append_right _ List.mem_cons_self)
      (List.mem_append_right _ (List.mem_cons_of_mem _ early_member))
  rw [ownIndex, order] at out
  cases out

include sound recorded consistent returned in
/-- If no call emitted, there is nothing to show. -/
theorem shown_of_silent (silent : ∀ entry ∈ calls.history, ¬ Begins entry.moment) :
    Shown calls.world := by
  have quiet : ∀ entry ∈ calls.history, ¬ entry.moment.call.emits = true := by
    intro entry member emits
    obtain ⟨_, first, _, _, authenticated, _, whole⟩ :=
      emitted_of_emits sound recorded returned member emits
    obtain ⟨own, inside, -, same⟩ : ∃ own ∈ calls.history, own.index = entry.index ∧
        own.moment = ⟨first, .readAuthenticated, authenticated⟩ :=
      mem_momentsOf.mp (by simp [whole])
    exact silent own inside (by rw [same]; rfl)
  have unpublished := consistent.unpublished fun entry member publishes =>
    quiet entry member (Section.emits_of_publishes publishes)
  have keys : SameKeys empty calls.world := by
    refine consistent.unchanged fun entry member => ?_
    have own : entry.moment ∈ momentsOf calls.history entry.index :=
      mem_momentsOf.mpr ⟨entry, member, rfl, rfl⟩
    have moments : ∀ moment ∈ momentsOf calls.history entry.index,
        ¬ moment.call.emits = true := by
      intro moment remembered
      obtain ⟨other, here, -, rfl⟩ := mem_momentsOf.mp remembered
      exact quiet other here
    have closed := closed_momentsOf sound recorded returned member
    generalize momentsOf calls.history entry.index = past at own moments closed
    cases closed with
    | silent past _ unchanged => exact unchanged _ own
    | emitted before first _ _ authenticated _ _ =>
      exact absurd rfl (moments ⟨first, .readAuthenticated, authenticated⟩ (by simp))
  intro id
  rw [unpublished, ← keys.authenticated, ← keys.mdns]
  simp [empty, Table.empty, Table.find?]

include sound recorded consistent returned in
/-- Once all calls have returned, the snapshot shows the devices of the two maps. -/
theorem shown_of_returned : Shown calls.world := by
  by_cases any : ∃ entry ∈ calls.history, Begins entry.moment
  · obtain ⟨entry, member, begins⟩ := any
    obtain ⟨before, last, later, split, lastBegins, final⟩ :=
      List.exists_split_last (fun entry : Record => Begins entry.moment) member begins
    have inside : last ∈ calls.history := by simp [split]
    obtain ⟨_, first, second, third, authenticated, mdns, whole⟩ :=
      emitted_of_emits sound recorded returned inside (Section.emits_of_begins lastBegins)
    -- the sections of the last call that began, after it began
    have own : momentsOf calls.history last.index =
        momentsOf before last.index ++ last.moment ::
          momentsOf later last.index := by
      rw [split, System.momentsOf_append, System.momentsOf_cons_self]
    obtain ⟨lastMoment, ownLater⟩ := List.split_last_unique Begins (own.symm.trans whole)
      lastBegins rfl (fun moment remembered => by
        obtain ⟨other, here, -, rfl⟩ := mem_momentsOf.mp remembered
        exact final other here) (by simp [Begins, Section.begins])
    have unchanged : ∀ other ∈ later, ¬ Changes other.moment := fun other here =>
      unchanged_since sound recorded returned split final here
    obtain ⟨reading, readingLater, -, readingMoment⟩ : ∃ reading ∈ later,
        reading.index = last.index ∧ reading.moment = ⟨second, .readMdns, mdns⟩ :=
      mem_momentsOf.mp (by simp [ownLater])
    obtain ⟨shown, shownLater, shownIndex, shownMoment⟩ : ∃ shown ∈ later,
        shown.index = last.index ∧
          shown.moment = ⟨third, .publish (emitted authenticated mdns), ()⟩ :=
      mem_momentsOf.mp (by simp [ownLater])
    obtain ⟨early, published, late, rfl, publishes, finalPublished⟩ :=
      List.exists_split_last (fun entry : Record => Publishes entry.moment) shownLater
        (by rw [shownMoment]; rfl)
    have publisher := index_of_last_published sound recorded consistent returned split lastBegins
      publishes final finalPublished shownLater shownIndex (by rw [shownMoment]; rfl)
    have publishedMoment : published.moment =
        ⟨third, .publish (emitted authenticated mdns), ()⟩ := by
      have remembered : published.moment ∈
          momentsOf (early ++ published :: late) last.index :=
        mem_momentsOf.mpr ⟨published, by simp, publisher, rfl⟩
      rw [ownLater] at remembered
      simp only [List.mem_cons, List.not_mem_nil, or_false] at remembered
      rcases remembered with read | shown
      · rw [read] at publishes
        cases publishes
      · exact shown
    have snapshot := consistent.snapshot (before ++ last :: early) published late
      (emitted authenticated mdns) (by simp [split]) (by rw [publishedMoment]) finalPublished
    -- what the last call read has the keys of the current maps
    have firstKeys : SameKeys first calls.world := by
      have kept := consistent.keys before last _ split (List.forall_mem_cons.mpr
        ⟨by rw [lastMoment]; exact Bool.false_ne_true, unchanged⟩)
      rwa [lastMoment] at kept
    have firstRead : authenticated = first.authenticatedPeers := by
      have replied := reply_eq sound recorded inside
      rwa [lastMoment] at replied
    obtain ⟨front, rest, readSplit⟩ := List.append_of_mem readingLater
    have secondKeys : SameKeys second calls.world := by
      have kept := consistent.keys (before ++ last :: front) reading rest
        (by simp [split, readSplit])
        (fun other here => unchanged other (readSplit ▸ List.mem_append_right _ here))
      rwa [readingMoment] at kept
    have secondRead : mdns = second.mdnsPeers := by
      have replied := reply_eq sound recorded (by simp [split, readSplit] : reading ∈ _)
      rwa [readingMoment] at replied
    intro id
    rw [snapshot, device_emitted_iff, firstRead, secondRead, firstKeys.authenticated,
      secondKeys.mdns]
  · exact shown_of_silent sound recorded consistent returned fun entry member begins =>
      any ⟨entry, member, begins⟩

end Returned

/-- In a run in which calls publish in the order in which they began to emit, whenever all calls
have returned the snapshot shows exactly the devices of the two maps. -/
theorem returned_calls_shown {inputs : List (Pool.Input Section.Reply Operation Empty)}
    (ordered : Run.Along (system localId).step (System.initial empty)
      (fun calls input => inOrder calls input = true) inputs) :
    Run.Throughout (system localId).step (System.initial empty)
      (fun calls => (∀ job ∈ calls.jobs, ∃ value, job.rest = .done value) → Shown calls.world)
      inputs := by
  have consistent := Run.invariant consistent_initial
    (fun _ _ kept order => consistent_step localId kept order) ordered
  intro done isPrefix returned
  exact shown_of_returned ((system localId).sound_run empty done)
    ((system localId).recorded_run empty done) (consistent done isPrefix) returned

/-- The next section of a call; the environment has nothing to propose. -/
def resumes (index : Nat) : Pool.Input Section.Reply Operation Empty :=
  .resume index fun request => (answer empty request).1

/-- Two calls are started and make their sections in a given order. -/
def twoCalls (order : List Nat) : Calls :=
  Run.exec (system ⟨"local"⟩).step (System.initial empty)
    ([.start (.observeAuthenticated (sampleAdvertisement "first" "first" 1)),
      .start (.observeAuthenticated (sampleAdvertisement "second" "second" 1))] ++
        order.map resumes)

/-- Whether all calls have returned. -/
def allReturned (calls : Calls) : Bool :=
  calls.jobs.all fun job => match job.rest with
    | .done _ => true
    | .await _ _ => false

theorem returned_of_allReturned {calls : Calls} (all : allReturned calls = true) :
    ∀ job ∈ calls.jobs, ∃ value, job.rest = .done value := by
  intro job member
  have found := List.all_eq_true.mp all job member
  split at found
  · exact ⟨_, ‹_›⟩
  · cases found

/-- Two calls that overlap and publish in order show both devices. -/
theorem returned_calls_shown_overlapping : Shown (twoCalls [0, 0, 1, 0, 0, 1, 1, 1]).world :=
  returned_calls_shown ⟨"local"⟩ (by decide +kernel) _ (List.prefix_refl _)
    (returned_of_allReturned (by decide +kernel))

/-- The first call reads before the second one changes anything and publishes after it: the device
of the second call is not shown, although it is known. -/
theorem overtaken_call_hides : (∀ job ∈ (twoCalls [0, 0, 1, 1, 1, 1, 0, 0]).jobs,
    ∃ value, job.rest = .done value) ∧ ¬ Shown (twoCalls [0, 0, 1, 1, 1, 1, 0, 0]).world := by
  refine ⟨returned_of_allReturned (by decide +kernel), fun shown => ?_⟩
  have known : ((twoCalls [0, 0, 1, 1, 1, 1, 0, 0]).world.authenticatedPeers.find?
      ⟨"second"⟩).isSome = true := by decide +kernel
  have hidden : (twoCalls [0, 0, 1, 1, 1, 1, 0, 0]).world.snapshot.all
      (fun peer => peer.deviceId != ⟨"second"⟩) = true := by decide +kernel
  obtain ⟨peer, member, same⟩ := (shown ⟨"second"⟩).mpr (Or.inl known)
  simpa [same] using List.all_eq_true.mp hidden peer member

end Discovery

end ArcRelay
