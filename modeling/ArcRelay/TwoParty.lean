import ArcRelay.Lib.Sides
import ArcRelay.Registry

/-!
# Two runtimes and two sessions between them

Two runtimes hold their own ends of two sessions of one kind and arbitrate
without exchanging a message: each calls `register_session` on its ends, and the
only thing it learns of the other is that a connection was closed. An action is
one registry operation at one end, or one moment at which a close becomes
visible. Actions come in any order.
-/

namespace ArcRelay

open Sides (Side)

/-- One of the two sessions. -/
inductive Dial where
  | first
  | second
deriving DecidableEq, Repr

/-- The competing session. -/
def Dial.other : Dial → Dial
  | .first => .second
  | .second => .first

/-- Two sessions of one kind between two runtimes, as both ends see them. Either may be direct or
relayed. No process restarts between them. -/
structure DialPair where
  id : Side → DeviceId
  distinct : id .left ≠ id .right
  kind : SessionKind
  session : Dial → Side → Session
  initiator : Dial → Side
  /-- A session is registered under the far device and the kind. -/
  keyed : ∀ dial side, (session dial side).key = (id side.other, kind)
  ranked : ∀ dial side, (session dial side).rank.initiatorId = id (initiator dial)
  sameRank : ∀ dial, (session dial .left).rank = (session dial .right).rank
  /-- Both ends agree on whether the session is relayed. -/
  sameRelay : ∀ dial, (session dial .left).isRelayed = (session dial .right).isRelayed
  /-- Each runtime talks to one process of the other. -/
  sameInstance : ∀ side, (session .first side).peerProcessInstanceId =
    (session .second side).peerProcessInstanceId
  /-- The two sessions have connections of their own. -/
  separate : ∀ side, (session .first side).conn ≠ (session .second side).conn

namespace DialPair

variable (pair : DialPair)

/-- The rank of a session. -/
def rank (dial : Dial) : SessionRank := (pair.session dial .left).rank

/-- Whether a session is relayed. -/
def relayed (dial : Dial) : Bool := (pair.session dial .left).isRelayed

/-- The connection of a session at one end. -/
def conn (dial : Dial) (side : Side) : ConnectionId := (pair.session dial side).conn

/-- The registry key of both sessions at one end. -/
def key (side : Side) : SessionKey := (pair.id side.other, pair.kind)

/-- The device ids of a concrete pair. -/
def sampleId : Side → String
  | .left => "a"
  | .right => "b"

/-- Two input sessions between the devices "a" and "b", for concrete runs. -/
def sample (initiator : Dial → Side) (relayed : Dial → Bool) : DialPair where
  id side := ⟨sampleId side⟩
  distinct := by decide
  kind := .realtimeInput
  session dial side := Session.sample (sampleId side.other) (sampleId (initiator dial)) 0
    .realtimeInput (if dial = .first then 1 else 2) (relayed dial)
  initiator := initiator
  keyed := by intro dial side; rfl
  ranked := by intro dial side; rfl
  sameRank := by intro dial; rfl
  sameRelay := by intro dial; rfl
  sameInstance := by intro side; rfl
  separate := by intro side; simp [Session.sample, Session.conn]

end DialPair

namespace TwoParty

/-- One thing that happens at one end. -/
inductive Action where
  /-- `register_session` on the end of a session. -/
  | register (side : Side) (dial : Dial)
  /-- A close made at the far end becomes visible. -/
  | deliver (side : Side) (dial : Dial)
  /-- `active` for the key of the sessions. -/
  | lookup (side : Side)
  /-- The connection of a session fails or is closed from outside. -/
  | fail (side : Side) (dial : Dial)
deriving DecidableEq, Repr

/-- Both registries, and what each end has registered, latest last. -/
structure State where
  registry : Side → Registry
  /-- The sessions each runtime has registered. -/
  order : Side → List Dial

/-- Change the registry of one side. -/
def State.at (state : State) (side : Side) (registry : Registry) : State :=
  { state with registry := fun other => if other = side then registry else state.registry other }

/-- Add a session to what a side has registered. -/
def State.note (state : State) (side : Side) (dial : Dial) : State :=
  { state with
    order := fun other => if other = side then state.order side ++ [dial] else state.order other }

/-- One action. A close is visible at an end only after the far end has closed. -/
def step (pair : DialPair) (state : State) : Action → State
  | .register side dial =>
    (state.at side ((state.registry side).registerSession (pair.session dial side)).2).note side
      dial
  | .deliver side dial =>
    if (state.registry side.other).isOpen (pair.conn dial side.other) then state
    else state.at side ((state.registry side).closeWith (pair.conn dial side)
      (.applicationClosed 409 "session replaced"))
  | .lookup side =>
    state.at side ((state.registry side).active (pair.key side).1 (pair.key side).2).2
  | .fail side dial =>
    state.at side ((state.registry side).closeWith (pair.conn dial side) .timedOut)

end TwoParty

end ArcRelay
