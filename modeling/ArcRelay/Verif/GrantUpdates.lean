import ArcRelay.Lib.Conduct
import ArcRelay.Verif.Forgetting
import ArcRelay.Verif.Pairing

/-!
# Grants under concurrent updates

`confirm_pairing_with_grants` reads the grants of the peer in one call and replaces
all of them in another. If nothing has changed them in between, the grants are what
the updates make of them one after the other, in the order of their writes. What
`grant` or `revoke` writes in between is undone.
-/

namespace ArcRelay

open Async

/-- The grant of a peer that is stored under a key. -/
def granted (platform : Platform) (database : Database) (id : DeviceId) (key : GrantKey) :
    Option Grant :=
  (database.grants.find? (id.asStr, platform.token key.1, encodeDirection key.2)).bind fun row =>
    (decodeGrant platform row).toOption

/-- Grants with one that replaces the one under its key. -/
def withGrant (grants : GrantKey → Option Grant) (given : Grant) : GrantKey → Option Grant :=
  Function.update grants given.key (some given)

/-- A function that changes the grants of a peer. -/
inductive GrantUpdate (id : DeviceId) where
  /-- `confirm_pairing_with_grants`. -/
  | confirm (session : Session) (own : session.peer.deviceId = id) (new : List Grant)
  | grant (given : Grant) (own : given.peerId = id)
  | revoke (capability : CapabilityId) (direction : GrantDirection)

variable {id : DeviceId}

/-- The operation of the runtime. -/
def GrantUpdate.operation : GrantUpdate id → Operation
  | .confirm session _ new => .confirmPairing session new
  | .grant given _ => .grant given
  | .revoke capability direction => .revoke id capability direction

/-- The grants of the peer after an update that nothing interferes with. -/
def GrantUpdate.apply (grants : GrantKey → Option Grant) :
    GrantUpdate id → GrantKey → Option Grant
  | .confirm _ _ new => new.foldl withGrant grants
  | .grant given _ => withGrant grants given
  | .revoke capability direction => Function.update grants (capability, direction) none

/-- The calls of updates. -/
abbrev UpdateHistory (id : DeviceId) := List (Entry Call.Reply World (GrantUpdate id))

/-- The writes of the updates, in their order. -/
def serialized (history : UpdateHistory id) : UpdateHistory id :=
  history.filter fun entry => wrote entry.moment

/-- The device whose grants were read. -/
def readGrants : Moment → Option DeviceId
  | ⟨_, .grants id, _⟩ => some id
  | _ => none

/-- When a pairing is stored, the grants of the peer are those that were read for it. -/
def UpToDate (platform : Platform) (history : UpdateHistory id) : Prop :=
  ∀ save ∈ history, storedPairing save.moment = some id → ∀ read ∈ history,
    read.index = save.index → readGrants read.moment = some id →
      granted platform read.moment.world.database id =
        granted platform save.moment.world.database id

section Grants

variable {platform : Platform} {database after : Database} {key : GrantKey} {grant : Grant}

theorem grantColumns_eq_iff :
    grantColumns platform grant = (id.asStr, platform.token key.1, encodeDirection key.2) ↔
      grant.peerId = id ∧ grant.key = key :=
  (grantColumns_inj : _ = grantColumns platform ⟨id, key.1, key.2, .none, 0⟩ ↔ _)

/-- A grant is stored under a key if a row under this key decodes to it. -/
theorem granted_eq_some : granted platform database id key = some grant ↔
    ∃ row ∈ database.grants.rows, decodeGrant platform row = .ok grant ∧ grant.peerId = id ∧
      grant.key = key := by
  have read : ∀ row, (decodeGrant platform row).toOption = some grant ↔
      decodeGrant platform row = .ok grant := fun row => by
    cases decodeGrant platform row <;> simp [Except.toOption]
  simp only [granted, Option.bind_eq_some_iff, Table.find?_eq_some, read]
  constructor
  · rintro ⟨row, ⟨stored, named⟩, decoded⟩
    rw [key_decodeGrant decoded] at named
    exact ⟨row, stored, decoded, grantColumns_eq_iff.mp named⟩
  · rintro ⟨row, stored, decoded, own⟩
    exact ⟨row, ⟨stored, (key_decodeGrant decoded).trans (grantColumns_eq_iff.mpr own)⟩, decoded⟩

/-- The grants that are read are those that are stored. -/
theorem mem_grantsOf_iff {grants : List Grant}
    (read : database.grantsOf platform id = .ok grants) :
    grant ∈ grants ↔ granted platform database id grant.key = some grant := by
  rw [granted_eq_some]
  constructor
  · intro member
    obtain ⟨row, stored, -, decoded⟩ := (Database.mem_grantsOf read).mp member
    exact ⟨row, stored, decoded, Database.peerId_of_mem_grantsOf read member, rfl⟩
  · rintro ⟨row, stored, decoded, rfl, -⟩
    exact (Database.mem_grantsOf read).mpr
      ⟨row, stored, congrArg Prod.fst (key_decodeGrant decoded), decoded⟩

theorem granted_saveGrant (saved : database.saveGrant platform grant = .ok after)
    (parsed : platform.parseDeviceId grant.peerId.asStr = .ok grant.peerId) :
    granted platform after grant.peerId =
      withGrant (granted platform database grant.peerId) grant := by
  obtain ⟨row, encoded, -, rows⟩ := Database.saveGrant_eq_ok saved
  have decoded := decodeGrant_encodeGrant encoded parsed
  funext key
  simp only [granted, rows, Table.find?_upsert, key_encodeGrant encoded, grantColumns_eq_iff,
    true_and]
  by_cases here : grant.key = key
  · subst here
    simp [withGrant, decoded, Except.toOption]
  · simp [withGrant, here, granted, Ne.symm here]

theorem granted_revokeGrant (capability : CapabilityId) (direction : GrantDirection) :
    granted platform (database.revokeGrant platform id capability direction).2 id =
      Function.update (granted platform database id) (capability, direction) none := by
  funext key
  simp only [granted, Database.revokeGrant, Database.deleteGrants, Table.find?_deleteKey]
  by_cases here : key = (capability, direction)
  · simp [here]
  · have other : (id.asStr, platform.token key.1, encodeDirection key.2) ≠
        (id.asStr, platform.token capability, encodeDirection direction) := fun same =>
      here (grantColumns_eq_iff.mp (show grantColumns platform ⟨id, key.1, key.2, .none, 0⟩ =
        (id.asStr, platform.token (capability, direction).1, _) from same)).2
    rw [if_neg other, Function.update_of_ne here, granted]

theorem granted_savePairing {peer : PeerRecord} {grants : List Grant}
    (saved : database.savePairing platform peer grants = .ok after)
    (parsed : platform.parseDeviceId peer.deviceId.asStr = .ok peer.deviceId) :
    granted platform after peer.deviceId key = some grant ↔ grant ∈ grants ∧ grant.key = key := by
  obtain ⟨-, own, -, written, rows⟩ := Database.savePairing_eq_ok saved
  rw [granted_eq_some]
  constructor
  · rintro ⟨row, stored, decoded, peerId, named⟩
    rcases (rows row).mp stored with ⟨-, other⟩ | ⟨given, member, encoded⟩
    · exact absurd (peerId ▸ congrArg Prod.fst (key_decodeGrant decoded)) other
    · rw [decodeGrant_encodeGrant encoded ((own given member).symm ▸ parsed)] at decoded
      cases decoded
      exact ⟨member, named⟩
  · rintro ⟨member, named⟩
    obtain ⟨row, encoded⟩ := written grant member
    exact ⟨row, (rows row).mpr (.inr ⟨grant, member, encoded⟩),
      decodeGrant_encodeGrant encoded ((own grant member).symm ▸ parsed), own grant member, named⟩

theorem find?_foldl_upsert (rows : List Grant) (table : Table Grant GrantKey Grant.key) :
    (fun wanted => (rows.foldl Table.upsert table).find? wanted) =
      rows.foldl withGrant fun wanted => table.find? wanted := by
  induction rows generalizing table with
  | nil => rfl
  | cons row rows ih =>
    rw [List.foldl_cons, List.foldl_cons, ih]
    congr 1
    funext wanted
    simp only [Table.find?_upsert, withGrant, Function.update_apply, eq_comm]

/-- If the existing grants are those that are stored, the new ones are put in one by one. -/
theorem granted_merged {peer : PeerRecord} {existing new : List Grant}
    (saved : database.savePairing platform peer (mergeGrants existing new) = .ok after)
    (parsed : platform.parseDeviceId peer.deviceId.asStr = .ok peer.deviceId)
    (read : ∀ grant, grant ∈ existing ↔
      granted platform database peer.deviceId grant.key = some grant)
    (distinct : (existing.map Grant.key).Nodup) :
    granted platform after peer.deviceId =
      new.foldl withGrant (granted platform database peer.deviceId) := by
  have start : (fun wanted => (existing.foldl Table.upsert
      (Table.empty : Table Grant GrantKey Grant.key)).find? wanted) =
        granted platform database peer.deviceId := by
    funext key
    refine Option.ext fun grant => ?_
    rw [Table.find?_eq_some, Table.mem_foldl_upsert distinct, read]
    constructor
    · rintro ⟨held | ⟨none, -⟩, rfl⟩
      · exact held
      · cases none
    · intro held
      obtain ⟨-, -, -, -, rfl⟩ := granted_eq_some.mp held
      exact ⟨.inl held, rfl⟩
  rw [← start, ← find?_foldl_upsert, ← List.foldl_append]
  funext key
  refine Option.ext fun grant => ?_
  rw [granted_savePairing saved parsed, mergeGrants, Table.find?_eq_some]

end Grants

namespace Runtime

/-! ## How updates conduct themselves -/

/-- Updates of the grants of a peer that run at the same time. -/
def updates (self : Runtime) (id : DeviceId) :
    System Call.Reply Outcome World (GrantUpdate id) Event where
  program update := self.program update.operation
  handle := self.handle
  disturb := World.disturb

/-- What an update guarantees of its calls: it writes once, what it is asked to. -/
def Updates (update : GrantUpdate id) (past : List Moment) : Call → Prop
  | .savePairing record grants => ∃ first second now session own new existing,
    past = [⟨first, .now, now⟩, ⟨second, .grants id, .ok existing⟩] ∧
      update = .confirm session own new ∧ record.deviceId = id ∧ grants = mergeGrants existing new
  | .saveGrant given => past = [] ∧ ∃ own, update = .grant given own
  | .revokeGrant peer capability direction =>
    past = [] ∧ peer = id ∧ update = .revoke capability direction
  | .savePeer _ | .forgetPeer _ => False
  | _ => True

/-- The repository has been written. -/
def HasWritten (past : List Moment) : Prop := ∃ moment ∈ past, wrote moment = true

/-- An update has succeeded. -/
def succeeded : Outcome → Bool
  | .unit result => result.isOk
  | .flag result => result.isOk
  | _ => false

/-- The program is that of an update, and has written when it succeeds. -/
abbrev Writing (update : GrantUpdate id) {α : Type} (past : List Moment) (program : Action α) :
    Prop :=
  Async.Ensures ⟨Updates update, fun _ _ => True⟩ (fun now _ => HasWritten now) past program

variable {self : Runtime} {update : GrantUpdate id} {past : List Moment} {moment : Moment}

theorem writing_of_written {α : Type} {program : Action α} (written : wrote moment = true)
    (succeeds : Async.Succeeds ⟨Updates update, fun _ _ => True⟩ (past ++ [moment]) program) :
    Writing update (past ++ [moment]) program :=
  (Program.Ensures.since succeeds).mono fun _ _ known _ _ =>
    ⟨moment, known.2.subset (by simp), written⟩

theorem writing_confirm (session : Session) (own : session.peer.deviceId = id) (new : List Grant) :
    Writing (.confirm session own new) [] (self.confirmPairingWithGrants session new) := by
  subst own
  refine ensures_ofExcept_bind fun _ _ => ensures_ofExcept_bind fun _ _ =>
    ensures_ofExcept_bind fun _ _ => ?_
  refine ⟨trivial, fun first now _ => ⟨trivial, fun second reply _ => ?_⟩⟩
  refine ensures_ofExcept_bind fun existing read => ?_
  obtain rfl : reply = .ok existing := Except.mapError_eq_ok.mp read
  refine ⟨⟨first, second, now, session, rfl, new, existing, rfl, rfl, rfl, rfl⟩,
    fun third saved _ => ensures_ofExcept_bind fun _ written => ?_⟩
  obtain rfl : saved = .ok () := Except.mapError_eq_ok.mp written
  refine writing_of_written rfl (succeeds_bind (succeeds_rememberAuthenticatedSession
    (fun past call remembers => ?_) session .inbound) fun _ _ => succeeds_call trivial)
  cases call <;> trivial

theorem writing_grant (given : Grant) (own : given.peerId = id) :
    Writing (.grant given own) [] (self.grant given) := by
  refine ensures_ofExcept_bind fun _ _ => ⟨⟨rfl, own, rfl⟩, fun first saved _ => ?_⟩
  refine ensures_ofExcept_bind fun _ written => ?_
  obtain rfl : saved = .ok () := Except.mapError_eq_ok.mp written
  refine writing_of_written rfl ?_
  split
  · exact succeeds_call trivial
  · exact succeeds_bind (succeeds_call trivial) fun _ _ => succeeds_pure _

theorem writing_revoke (capability : CapabilityId) (direction : GrantDirection) :
    Writing (.revoke capability direction : GrantUpdate id) []
      (self.revoke id capability direction) := by
  refine ⟨⟨rfl, rfl, rfl⟩, fun first reply _ => ensures_ofExcept_bind fun revoked written => ?_⟩
  obtain rfl : reply = .ok revoked := Except.mapError_eq_ok.mp written
  refine writing_of_written rfl ?_
  split
  · exact succeeds_bind (succeeds_call trivial) fun _ _ => succeeds_pure _
  · exact succeeds_pure _

/-- How updates conduct themselves. -/
def updateConduct (self : Runtime) (id : DeviceId) : Conduct (self.updates id) where
  guarantee := Updates
  post _ past outcome := succeeded outcome = true → HasWritten past
  programs update := by
    have writes : ∀ {α : Type} {result : Except NetworkError α} {now : List Moment},
        (∀ value, result = .ok value → HasWritten now) → result.isOk = true → HasWritten now := by
      rintro α (error | value) now known succeeds
      · cases succeeds
      · exact known value rfl
    cases update with
    | confirm session own new =>
      exact Program.ensures_map (Program.Ensures.mono (writing_confirm session own new)
        fun _ _ => writes)
    | grant given own =>
      exact Program.ensures_map (Program.Ensures.mono (writing_grant given own) fun _ _ => writes)
    | revoke capability direction =>
      exact Program.ensures_map (Program.Ensures.mono (writing_revoke capability direction)
        fun _ _ => writes)

/-! ## The order of the writes -/

/-- The grants of the peer are what the updates make of the first ones, each of which has written
once. -/
structure Serial (platform : Platform) (start : GrantKey → Option Grant)
    (history : UpdateHistory id) (world : World) : Prop where
  reads : ∀ entry ∈ history, ∀ read existing,
    entry.moment = ⟨read, .grants id, .ok existing⟩ →
      read.database.grantsOf platform id = .ok existing
  once : ((serialized history).map Entry.index).Nodup
  current : UpToDate platform history → granted platform world.database id =
    (serialized history).foldl (fun grants entry => entry.operation.apply grants) start

variable {start : GrantKey → Option Grant} {history : UpdateHistory id} {world after : World}
  {call : Call} {proposal reply : call.Reply} {index : Nat}

/-- An update writes once. -/
theorem Updates.first (updates : Updates update past call)
    (written : wrote ⟨world, call, reply⟩ = true) : ¬HasWritten past := by
  rintro ⟨moment, member, before⟩
  cases call
  case savePairing =>
    obtain ⟨first, second, now, session, own, new, existing, rfl, -⟩ := updates
    simp only [List.mem_cons, List.not_mem_nil, or_false] at member
    rcases member with rfl | rfl <;> cases before
  case saveGrant | revokeGrant =>
    obtain ⟨rfl, -⟩ := updates
    cases member
  case savePeer | forgetPeer => exact updates
  all_goals cases written

/-- An up-to-date write changes the grants of the peer as the update says. -/
theorem granted_written (parsed : self.platform.parseDeviceId id.asStr = .ok id)
    (serial : Serial self.platform start history world)
    (updates : Updates update (System.momentsOf history index) call)
    (answered : self.handle world call proposal = some (reply, after))
    (upToDate : UpToDate self.platform (history ++ [⟨index, update, ⟨world, call, reply⟩⟩])) :
    granted self.platform after.database id =
      if wrote ⟨world, call, reply⟩ then update.apply (granted self.platform world.database id)
        else granted self.platform world.database id := by
  have changed := handle_written answered
  generalize after.database = database at changed ⊢
  generalize same : (⟨world, call, reply⟩ : Moment) = moment at changed
  cases changed with
  | unchanged moment silent =>
    rw [silent]
    subst same
    rfl
  | savedPeer world record database saved =>
    cases same
    exact updates.elim
  | savedPairing world record grants database saved =>
    cases same
    obtain ⟨first, second, now, session, own, new, existing, past, rfl, rfl, rfl⟩ := updates
    obtain ⟨entry, member, sameJob, moment⟩ := System.mem_momentsOf.mp
      (past ▸ by simp : ⟨second, Call.grants record.deviceId, .ok existing⟩ ∈
        System.momentsOf history index)
    have read := serial.reads entry member second existing moment
    have unchanged : granted self.platform second.database record.deviceId = _ :=
      moment ▸ upToDate _ (List.mem_append_right _ (List.mem_singleton_self _)) rfl entry
        (List.mem_append_left _ member) sameJob (moment ▸ rfl)
    refine granted_merged saved parsed (fun grant => ?_) (Database.nodup_grantsOf read)
    rw [← unchanged]
    exact mem_grantsOf_iff read
  | forgot world id =>
    cases same
    exact updates.elim
  | savedGrant world given database saved =>
    cases same
    obtain ⟨-, rfl, rfl⟩ := updates
    exact granted_saveGrant saved parsed
  | revoked world revoked capability direction =>
    cases same
    obtain ⟨-, rfl, rfl⟩ := updates
    exact granted_revokeGrant capability direction

/-- One call keeps the grants serial. -/
theorem Serial.concat (parsed : self.platform.parseDeviceId id.asStr = .ok id)
    (serial : Serial self.platform start history world)
    (updates : Updates update (System.momentsOf history index) call)
    (answered : self.handle world call proposal = some (reply, after)) :
    Serial self.platform start (history ++ [⟨index, update, ⟨world, call, reply⟩⟩]) after := by
  have effect := granted_written parsed serial updates answered
  have first := @Updates.first _ _ _ world call reply updates
  generalize new : (⟨index, update, ⟨world, call, reply⟩⟩ : Entry _ _ _) = entry at effect ⊢
  have reads : ∀ other ∈ history ++ [entry], ∀ read existing,
      other.moment = ⟨read, .grants id, .ok existing⟩ →
        read.database.grantsOf self.platform id = .ok existing := by
    intro other member read existing moment
    rcases List.mem_concat_iff.mp member with earlier | rfl
    · exact serial.reads other earlier read existing moment
    · subst new
      cases moment
      exact World.read_eq_ok (congrArg Prod.fst (Option.some.inj answered))
  have current : UpToDate self.platform (history ++ [entry]) → _ := fun upToDate =>
    serial.current fun save member stored read past =>
      upToDate save (List.mem_append_left _ member) stored read (List.mem_append_left _ past)
  cases written : wrote ⟨world, call, reply⟩ with
  | false =>
    have same : serialized (history ++ [entry]) = serialized history := by
      simp [serialized, ← new, written]
    refine ⟨reads, same ▸ serial.once, fun upToDate => ?_⟩
    rw [same, effect upToDate, written, ← current upToDate]
    rfl
  | true =>
    have same : serialized (history ++ [entry]) = serialized history ++ [entry] := by
      simp [serialized, ← new, written]
    refine ⟨reads, ?_, fun upToDate => ?_⟩
    · rw [same, List.map_append, List.map_singleton, ← List.concat_eq_append]
      refine serial.once.concat fun again => first written ?_
      obtain ⟨other, member, own⟩ := List.mem_map.mp again
      obtain ⟨past, wrote⟩ := List.mem_filter.mp member
      exact ⟨other.moment, System.mem_momentsOf.mpr ⟨other, past, own.trans (new ▸ rfl), rfl⟩,
        wrote⟩
    · rw [same, List.foldl_concat, effect upToDate, written, ← current upToDate, ← new]
      rfl

/-- If every pairing that is stored is up to date, the grants of the peer are at any time what the
updates that have written make of the first ones, in the order of their writes. Every update is
there once at most, and there if it has succeeded. -/
theorem grant_updates_serialize (self : Runtime) (database : Database)
    (parsed : self.platform.parseDeviceId id.asStr = .ok id)
    (inputs : List (Pool.Input Call.Reply (GrantUpdate id) Event))
    {pool : Pool Call.Reply Outcome World (GrantUpdate id)}
    (reached : pool = Run.exec (self.updates id).step (System.initial (World.fresh database))
      inputs)
    (upToDate : UpToDate self.platform pool.history) :
    granted self.platform pool.world.database id = (serialized pool.history).foldl
        (fun grants entry => entry.operation.apply grants) (granted self.platform database id) ∧
      ((serialized pool.history).map Entry.index).Nodup ∧
      ∀ index update outcome, System.outcome pool index = some (update, outcome) →
        succeeded outcome = true → ∃ entry ∈ serialized pool.history,
          entry.index = index ∧ entry.operation = update := by
  have fresh : Serial self.platform (granted self.platform database id) ([] : UpdateHistory id)
      (World.fresh database) := ⟨by simp, List.nodup_nil, fun _ => rfl⟩
  obtain ⟨kept, serial⟩ := (self.updateConduct id).invariant_always
    (Serial self.platform (granted self.platform database id)) fresh
    (fun _ serial updates answered => serial.concat parsed updates answered)
    (fun event serial => ⟨serial.reads, serial.once, fun upToDate => by
      simpa only [updates, World.disturb_database] using serial.current upToDate⟩) inputs
  rw [← reached] at kept serial
  refine ⟨serial.current upToDate, serial.once, fun index update outcome returned succeeds => ?_⟩
  obtain ⟨moment, member, written⟩ := kept.achieved returned succeeds
  obtain ⟨entry, past, own, rfl⟩ := System.mem_momentsOf.mp member
  obtain ⟨job, found, same, -⟩ := System.outcome_eq_some returned
  obtain ⟨job', found', same'⟩ := kept.recorded.known entry past
  rw [own, found] at found'
  cases found'
  exact ⟨entry, List.mem_filter.mpr ⟨past, written⟩, own, same'.symm.trans same⟩

/-- A pairing session with Bob that is confirmed. -/
def bobConfirmed : GrantUpdate ⟨"bob"⟩ :=
  .confirm (.sample "bob" "bob" 0 .pairing 7 false) rfl []

/-- What Bob was granted. -/
def bobGrant : Grant := ⟨⟨"bob"⟩, .crossScreenInject, .outbound, .none, 0⟩

/-- Bob is paired and has the grant. -/
def bobGranted : Database :=
  (Database.empty.savePairing (pairPlatform .pairing)
    (pairingRecord (.sample "bob" "bob" 0 .pairing 7 false) 0) [bobGrant]).toOption.getD .empty

/-- Bob's pairing is confirmed again, and after so many of its calls the grant is revoked. -/
def confirmedAround (calls : Nat) : Pool Call.Reply Outcome World (GrantUpdate ⟨"bob"⟩) :=
  Run.exec ((accepting .pairing).updates ⟨"bob"⟩).step (System.initial (World.fresh bobGranted))
    ([.start bobConfirmed, .start (.revoke .crossScreenInject .outbound)] ++
      List.replicate calls (.resume 0 Call.smooth) ++ List.replicate 2 (.resume 1 Call.smooth) ++
        List.replicate 8 (.resume 0 Call.smooth))

/-- A grant that is revoked before the grants are read stays revoked. -/
theorem grant_updates_serialize_revoked :
    granted (pairPlatform .pairing) (confirmedAround 0).world.database ⟨"bob"⟩
      (.crossScreenInject, .outbound) = none := by
  have rows : ∀ save ∈ (confirmedAround 0).history, storedPairing save.moment = some ⟨"bob"⟩ →
      ∀ read ∈ (confirmedAround 0).history, read.index = save.index →
        readGrants read.moment = some ⟨"bob"⟩ →
          read.moment.world.database.grants.rows = save.moment.world.database.grants.rows := by
    decide +kernel
  have upToDate : UpToDate (pairPlatform .pairing) (confirmedAround 0).history := by
    intro save member stored read past own reads
    funext key
    rw [granted, granted, Table.find?, Table.find?, rows save member stored read past own reads]
  have serial := (grant_updates_serialize (accepting .pairing) bobGranted rfl _ rfl upToDate).1
  exact (congrFun serial _).trans (by decide +kernel)

/-- A grant that is revoked between the read and the write of a confirmation is stored again,
although it would be gone if one had run after the other. -/
theorem revoked_grant_returns :
    (System.outcome (confirmedAround 2) 0).map Prod.snd = some (.unit (.ok ())) ∧
      (System.outcome (confirmedAround 2) 1).map Prod.snd = some (.flag (.ok true)) ∧
        granted (pairPlatform .pairing) (confirmedAround 2).world.database ⟨"bob"⟩
          (.crossScreenInject, .outbound) = some bobGrant ∧
        ∀ order ∈ [[bobConfirmed, .revoke .crossScreenInject .outbound],
            [.revoke .crossScreenInject .outbound, bobConfirmed]],
          order.foldl GrantUpdate.apply (granted (pairPlatform .pairing) bobGranted ⟨"bob"⟩)
            (.crossScreenInject, .outbound) = none := by
  decide +kernel

end Runtime

end ArcRelay
