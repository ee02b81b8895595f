import ArcRelay.Dialing
import ArcRelay.Lib.Pool

/-!
# The running system

Everything one runtime can be doing at the same time: calls of its public
functions, the tasks they spawn, and the tasks of the accept loop. Their calls
interleave in any order.
-/

namespace ArcRelay

/-- What a job of the runtime is about. -/
inductive Operation where
  | connect (peer : PeerAdvertisement) (kind : SessionKind)
  | connectRemembered (id : DeviceId) (kind : SessionKind)
  | connectPairedAt (id : DeviceId) (addresses : List SocketAddr) (kind : SessionKind)
  | connectInputRelay (target : DeviceId)
  | acceptInputRelay (source : DeviceId)
  | acceptIncoming
  | candidate (race index : Nat)
  | cleanup (session : Session)
  | completePairing (pending : PendingPairing)
  /-- `confirm_pairing_with_grants`. -/
  | confirmPairing (session : Session) (grants : List Grant)
  | forget (id : DeviceId)
  | disconnect (id : DeviceId) (reason : String)
  | setPeerAutoConnect (id : DeviceId) (enabled : Bool)
  | grant (grant : Grant)
  | revoke (id : DeviceId) (capability : CapabilityId) (direction : GrantDirection)
deriving DecidableEq

/-- What a job ends with. -/
inductive Outcome where
  | session (result : Except NetworkError Session)
  | pairing (result : Except NetworkError PairingOutcome)
  | flag (result : Except NetworkError Bool)
  | unit (result : Except NetworkError Unit)
deriving DecidableEq

namespace Runtime

variable (self : Runtime)

/-- The program of a job. -/
def program : Operation → Program Call.Reply Outcome
  | .connect peer kind => .session <$> (self.connect peer kind).run
  | .connectRemembered id kind => .session <$> (self.connectRemembered id kind).run
  | .connectPairedAt id addresses kind =>
    .session <$> (self.connectPairedAt id addresses kind).run
  | .connectInputRelay target => .session <$> (self.connectInputRelay target).run
  | .acceptInputRelay source => .session <$> (self.acceptInputRelay source).run
  | .acceptIncoming => .unit <$> self.acceptIncoming.run
  | .candidate race index => (fun _ => .unit (.ok ())) <$> self.candidate race index
  | .cleanup session => .unit <$> (cleanup session).run
  | .completePairing pending => .pairing <$> (self.completePairing pending).run
  | .confirmPairing session grants => .unit <$> (self.confirmPairingWithGrants session grants).run
  | .forget id => .flag <$> (self.forget id).run
  | .disconnect id reason => (fun _ => .unit (.ok ())) <$> perform (.disconnect id reason)
  | .setPeerAutoConnect id enabled => .flag <$> (self.setPeerAutoConnect id enabled).run
  | .grant grant => .unit <$> (self.grant grant).run
  | .revoke id capability direction => .flag <$> (self.revoke id capability direction).run

/-- The runtime with everything that runs on it. -/
def system : System Call.Reply Outcome World Operation Event where
  program := self.program
  handle := self.handle
  disturb := World.disturb

end Runtime

/-- The jobs of a runtime. -/
abbrev Jobs := Pool Call.Reply Outcome World Operation

/-- What happens to a runtime, one after the other. -/
abbrev Inputs := List (Pool.Input Call.Reply Operation Event)

/-- A call as the history of all jobs remembers it. -/
abbrev Record := Entry Call.Reply World Operation

/-- The calls of all jobs. -/
abbrev History := List Record

end ArcRelay
