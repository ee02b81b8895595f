import ArcRelay.Lib.Fallible
import ArcRelay.Trusting
import ArcRelay.Verif.World

/-!
# Parts that several contracts share

Checking that a device is paired, remembering where it was reached and waiting
with a deadline occur in functions with different contracts. Their specifications
are stated once, for every contract that allows their calls.
-/

namespace ArcRelay

open Async

/-- The repository has answered that it stores the paired device. -/
def ReadPaired (now : List Moment) (id : DeviceId) (record : PeerRecord) : Prop :=
  record.trustState = .paired ∧ ∃ world, ⟨world, .peer id, .ok (some record)⟩ ∈ now

theorem ReadPaired.mono {past now : List Moment} {id : DeviceId} {record : PeerRecord}
    (subset : past ⊆ now) (read : ReadPaired past id record) : ReadPaired now id record := by
  obtain ⟨paired, world, member⟩ := read
  exact ⟨paired, world, subset member⟩

/-- The calls that remember an authenticated session. -/
def Call.remembers : Call → Bool
  | .now | .observeAuthenticated _ | .peer _ | .recordAuthenticated _ _ _ _ => true
  | _ => false

namespace Runtime

variable {self : Runtime} {contract : Program.Contract World Call.Reply} {past : List Moment}

/-- `require_paired` returns what the repository answered, if that is a paired device with the
right key. -/
theorem ensures_requirePaired (asks : ∀ past id, contract.guarantee past (.peer id))
    (id : DeviceId) (key : Option DevicePublicKey) :
    Async.Ensures contract (fun now record => ReadPaired now id record ∧
      (∃ before world, contract.rely before ⟨world, .peer id, .ok (some record)⟩) ∧
        ∀ expected, key = some expected → record.publicKey = expected) past
      (self.requirePaired id key) := by
  have asked : Async.Ensures contract (fun now reply => ∃ before world,
      ⟨world, .peer id, reply⟩ ∈ now ∧ contract.rely before ⟨world, .peer id, reply⟩) past
      (ask (.peer id)) :=
    ensures_call (asks past id) fun world reply relied => ⟨past, world, by simp, relied⟩
  refine ensures_bind asked fun now reply known => ?_
  refine ensures_bind_since ensures_succeeded fun between stored grown read => ?_
  obtain rfl : reply = .ok stored := Except.mapError_eq_ok.mp read
  obtain ⟨before, world, member, relied⟩ := known
  split
  · exact ensures_throw _
  · rename_i peer found
    obtain ⟨rfl, paired⟩ := Option.filter_eq_some_iff.mp found
    refine ensures_bind_since ensures_passed fun later _ further matched => ?_
    refine ensures_pure ⟨⟨by simpa using paired, world,
      (grown.trans further).subset member⟩, ⟨before, world, relied⟩, ?_⟩
    rintro expected rfl
    have same : expected = peer.publicKey := by simpa using matched
    exact same.symm

/-- Remembering a session cannot fail. -/
theorem succeeds_rememberAuthenticatedSession
    (asks : ∀ past call, call.remembers = true → contract.guarantee past call)
    (session : Session) (source : EndpointSource) :
    Async.Succeeds contract past (self.rememberAuthenticatedSession session source) := by
  have checks : ∀ past, Async.Ensures contract _ past
      (self.requirePaired session.peer.deviceId (some session.peer.publicKey)) :=
    fun past => ensures_requirePaired (fun past id => asks past _ rfl) _ _
  refine succeeds_bind (succeeds_call (asks _ _ rfl)) fun _ now => ?_
  refine succeeds_bind (succeeds_call (asks _ _ rfl)) fun _ _ => ?_
  refine succeeds_bind (succeeds_result (checks _)) fun _ paired => ?_
  split
  · exact succeeds_pure _
  · exact succeeds_bind (succeeds_call (asks _ _ rfl)) fun _ _ => succeeds_pure _

theorem ensures_withTimeout {α : Type} {post : List Moment → α → Prop} {program : Action α}
    (monotone : contract.Monotone) (asks : ∀ past, contract.guarantee past .expired)
    (grows : ∀ past more value, past ⊆ more → post past value → post more value)
    (ensures : Async.Ensures contract post past program) :
    Async.Ensures contract post past (withTimeout program) := by
  refine Program.ensures_bind (Program.ensures_timeout monotone asks
    (fun past more _ subset known value same => grows past more value subset (known value same))
    ensures) fun _ result known => ?_
  cases result with
  | none =>
    intro value same
    cases same
  | some result => exact known result rfl

/-- Waiting with a deadline that does not expire. -/
theorem achieves_withTimeout {α : Type} {post : List Moment → α → Prop} {program : Action α}
    (monotone : contract.Monotone) (asks : ∀ past, contract.guarantee past .expired)
    (prompt : ∀ past world expired, contract.rely past ⟨world, .expired, expired⟩ → expired = false)
    (grows : ∀ past more value, past ⊆ more → post past value → post more value)
    (achieves : Async.Achieves contract post past program) :
    Async.Achieves contract post past (withTimeout program) := by
  refine Program.ensures_bind (Program.ensures_timeout_prompt monotone asks prompt
    (fun past more _ subset ⟨value, same, known⟩ =>
      ⟨value, same, grows past more value subset known⟩)
    achieves) fun _ result known => ?_
  obtain ⟨value, rfl, other, same, holds⟩ := known
  exact ⟨other, same, holds⟩

/-! ## Approved grants -/

/-- What the grants approved in the loop are: pairwise different, requested, and unchanged. -/
structure Approved (pending : PendingPairing) (granted : List Grant) : Prop where
  distinct : (granted.map Grant.key).Nodup
  own : ∀ grant ∈ granted, grant.peerId = pending.session.peer.deviceId
  requested : ∀ grant ∈ granted,
    pending.requested.find? grant.key = some (grant.key, grant.constraints)

/-- The loop approves requested grants only, each once, and none that was seen before. -/
theorem ensures_approveGrants (asks : ∀ past, contract.guarantee past .now) (pending : PendingPairing)
    (wires : List CapabilityGrant) (seen : List GrantKey) :
    Async.Ensures contract (fun _ granted => Approved pending granted ∧
      ∀ grant ∈ granted, grant.key ∉ seen) past (self.approveGrants pending seen wires) := by
  induction wires generalizing seen past with
  | nil => exact ensures_pure ⟨⟨by simp, by simp, by simp⟩, by simp⟩
  | cons wire later ih =>
    refine ensures_bind ensures_succeeded fun _ capability _ => ?_
    refine ensures_bind ensures_succeeded fun _ direction _ => ?_
    refine ensures_bind ensures_passed fun _ _ unseen => ?_
    refine ensures_bind ensures_succeeded fun _ expected found => ?_
    refine ensures_bind ensures_succeeded fun _ constraints _ => ?_
    refine ensures_bind ensures_passed fun _ _ unchanged => ?_
    refine ensures_call_bind (asks _) fun _ grantedAtMs _ => ?_
    refine ensures_bind (ih ((capability, direction) :: seen)) fun _ granted known => ?_
    obtain ⟨approved, fresh⟩ := known
    have same : constraints = expected := by simpa using unchanged
    have asked : pending.requested.find? (capability, direction) =
        some ((capability, direction), constraints) := by
      split at found
      · rename_i entry present
        cases found
        obtain ⟨-, key⟩ := Table.find?_eq_some.mp present
        rw [present, same, ← key]
      · cases found
    refine ensures_pure ⟨⟨?_, ?_, ?_⟩, ?_⟩
    · rw [List.map_cons, List.nodup_cons]
      refine ⟨fun again => ?_, approved.distinct⟩
      obtain ⟨grant, member, key⟩ := List.mem_map.mp again
      exact fresh grant member (key ▸ List.mem_cons_self)
    · intro grant member
      rcases List.mem_cons.mp member with rfl | later
      · rfl
      · exact approved.own grant later
    · intro grant member
      rcases List.mem_cons.mp member with rfl | later
      · exact asked
      · exact approved.requested grant later
    · intro grant member
      rcases List.mem_cons.mp member with rfl | later
      · simpa [Grant.key] using unseen
      · exact fun again => fresh grant later (List.mem_cons_of_mem _ again)

end Runtime

end ArcRelay
