import ArcRelay.Basic
import ArcRelay.Lib.Sides

/-!
# The bridge of an input relay

A relay tunnel is a private QUIC endpoint on the loopback interface, a proxy socket it
talks to, and a task that carries datagrams between the proxy and a pair of streams of
another session. Here are both ends of one relay, with the streams that join them. Each
half of the bridge waits in one call at a time; which of them completes next and how, and
what arrives at a socket that every process of the device can send to, is decided from
outside.
-/

namespace ArcRelay.Relay

/-- Where the half of the bridge that leads to the endpoint waits. -/
inductive Inbound where
  /-- In `read_frame`. -/
  | reading
  /-- In `send_to`, with a packet for the endpoint. -/
  | sending (packet : Bytes)
deriving DecidableEq, Repr

/-- The packet in hand. -/
def Inbound.held : Inbound → List Bytes
  | .reading => []
  | .sending packet => [packet]

/-- Where the half of the bridge that comes from the endpoint waits. -/
inductive Outbound where
  /-- In `recv_from`. -/
  | receiving
  /-- In `write_frame`, with a frame that is not yet complete in the stream. -/
  | writing (packet : Bytes)
  /-- In `write_frame`, after the whole frame was handed over. -/
  | flushing
deriving DecidableEq, Repr

/-- The packet in hand. -/
def Outbound.held : Outbound → List Bytes
  | .receiving | .flushing => []
  | .writing packet => [packet]

/-- The task of the bridge. -/
inductive Bridge where
  /-- In `select!`, with both halves waiting. -/
  | running (inbound : Inbound) (outbound : Outbound)
  | stopped (error : NetworkError)
  | aborted
deriving DecidableEq, Repr

/-- The task has not ended. -/
def Bridge.isRunning : Bridge → Bool
  | .running _ _ => true
  | .stopped _ | .aborted => false

/-- `AbortHandle::abort`, which does nothing to a task that has ended. -/
def Bridge.abort : Bridge → Bridge
  | .running _ _ => .aborted
  | ended => ended

/-- `relay::RelayTunnel` with its bridge. -/
structure Tunnel where
  /-- `endpoint.local_addr`. -/
  address : SocketAddr
  bridge : Bridge
  /-- The first reason the endpoint was closed for. -/
  closed : Option String
  /-- An `Arc<RelayTunnel>` is held, by the function that sets the relay up or by its session. -/
  held : Bool
deriving DecidableEq, Repr

namespace Tunnel

/-- What `new_input_relay_tunnel` returns. -/
def new (address : SocketAddr) : Tunnel := ⟨address, .running .reading .receiving, none, true⟩

/-- `Endpoint::close`. -/
def close (tunnel : Tunnel) (reason : String) : Tunnel :=
  { tunnel with closed := tunnel.closed.or (some reason) }

/-- The end of the bridge: `select!` drops the other half and the endpoint is closed. -/
def fail (tunnel : Tunnel) (error : NetworkError) : Tunnel :=
  { tunnel with bridge := .stopped error }.close "input relay stream closed"

/-- `RelayTunnel::drop`. -/
def release (tunnel : Tunnel) : Tunnel :=
  let tunnel := tunnel.close "input relay released"
  { tunnel with bridge := tunnel.bridge.abort, held := false }

end Tunnel

/-- One end of a relay. -/
structure End where
  tunnel : Tunnel
  /-- The datagrams its endpoint has sent to the proxy. -/
  emitted : List Bytes
  arrived : List (Bytes × SocketAddr)
  /-- The packets of the endpoint that the bridge took, first one first. -/
  taken : List Bytes
  /-- The frames on their way to the other end, first one first. -/
  stream : List Bytes
  /-- The datagrams the bridge gave to the endpoint, first one first. -/
  delivered : List Bytes
  /-- The inner connection was closed by its peer, by `Session::close` or by a timeout. -/
  lost : Bool
  /-- The clean-up task that `register_input_relay` spawns waits in `Connection::closed`. -/
  watched : Bool
deriving DecidableEq, Repr

/-- What happens at one end. -/
inductive Input where
  /-- The endpoint sends a datagram to the proxy. -/
  | emit (packet : Bytes)
  /-- A datagram arrives at the proxy. One of the endpoint may be late, lost or doubled; another
  process cannot send from the endpoint's address. -/
  | arrive (packet : Bytes) (source : SocketAddr)
  /-- The call completes that the half leading to the endpoint waits in. -/
  | inbound (result : Except NetworkError Unit)
  /-- The call completes that the half coming from the endpoint waits in. -/
  | outbound (result : Except NetworkError Unit)
  /-- The session is registered and its clean-up task is spawned. -/
  | register
  | lose
  /-- `NetworkRuntime::shutdown` closes the endpoint. -/
  | shutdown (reason : String)
  /-- The clean-up task aborts the bridge. -/
  | watch
  /-- The last `Arc<RelayTunnel>` is dropped. -/
  | release

namespace End

/-- An end whose tunnel has just been made. -/
def new (address : SocketAddr) : End := ⟨.new address, [], [], [], [], [], false, false⟩

/-- The task of the bridge has not ended, and holds both streams. -/
def isRunning (own : End) : Bool := own.tunnel.bridge.isRunning

/-- The inner connection was lost, or its endpoint has been told to close. `Endpoint::close` only
asks for the connections to be closed, so `Connection::closed` completes then or at any later
moment. -/
def isClosed (own : End) : Bool := own.lost || own.tunnel.closed.isSome

/-- The halves of a running bridge go on waiting elsewhere. -/
def wait (own : End) (inbound : Inbound) (outbound : Outbound) : End :=
  { own with tunnel := { own.tunnel with bridge := .running inbound outbound } }

/-- A half of the bridge fails. -/
def fail (own : End) (error : NetworkError) : End := { own with tunnel := own.tunnel.fail error }

/-- The half that leads to the endpoint has read a frame. -/
def frame (own : End) (outbound : Outbound) (packet : Bytes) : End :=
  if packet.isEmpty then own.fail (.protocol "empty input relay packet")
  else own.wait (.sending packet) outbound

/-- `read_frame` completes: with the next frame of the other end's stream, or with a failure once
that end has dropped the stream. Until then it waits. -/
def read (own other : End) (outbound : Outbound) : End × End :=
  match other.stream with
  | packet :: later => (own.frame outbound packet, { other with stream := later })
  | [] => if other.isRunning then (own, other) else (own.fail (.protocol "stream finished"), other)

/-- The half that comes from the endpoint has received a datagram, of which the buffer holds so many
bytes. -/
def datagram (limit : Nat) (own : End) (inbound : Inbound) (packet : Bytes) (source : SocketAddr) :
    End :=
  let packet := packet.take limit
  if source ≠ own.tunnel.address ∨ packet.length = 0 then own
  else { own.wait inbound (.writing packet) with taken := own.taken ++ [packet] }

/-- `recv_from` completes, if there is a datagram. -/
def receive (limit : Nat) (own : End) (inbound : Inbound) : End :=
  match own.arrived with
  | [] => own
  | (packet, source) :: later =>
    datagram limit { own with arrived := later } inbound packet source

/-- A call of the half that leads to the endpoint completes. -/
def completeInbound (own other : End) : Except NetworkError Unit → End × End
  | .error error => (if own.isRunning then own.fail error else own, other)
  | .ok () =>
    match own.tunnel.bridge with
    | .running .reading outbound => own.read other outbound
    | .running (.sending packet) outbound =>
      ({ own.wait .reading outbound with delivered := own.delivered ++ [packet] }, other)
    | .stopped _ | .aborted => (own, other)

/-- A call of the half that comes from the endpoint completes. -/
def completeOutbound (limit : Nat) (own : End) : Except NetworkError Unit → End
  | .error error => if own.isRunning then own.fail error else own
  | .ok () =>
    match own.tunnel.bridge with
    | .running inbound .receiving => receive limit own inbound
    | .running inbound (.writing packet) =>
      { own.wait inbound .flushing with stream := own.stream ++ [packet] }
    | .running inbound .flushing => own.wait inbound .receiving
    | .stopped _ | .aborted => own

/-- What an input does to the end it happens at and to the other one. -/
def move (limit : Nat) (own other : End) : Input → End × End
  | .emit packet => ({ own with emitted := own.emitted ++ [packet] }, other)
  | .arrive packet source =>
    (if source = own.tunnel.address ∧ packet ∉ own.emitted then own
      else { own with arrived := own.arrived ++ [(packet, source)] }, other)
  | .inbound result => own.completeInbound other result
  | .outbound result => (completeOutbound limit own result, other)
  | .register => ({ own with watched := own.watched || own.tunnel.held }, other)
  | .lose => ({ own with lost := true }, other)
  | .shutdown reason => ({ own with tunnel := own.tunnel.close reason }, other)
  | .watch =>
    (if own.watched && own.isClosed then
      { own with
        tunnel := { own.tunnel with bridge := own.tunnel.bridge.abort }
        watched := false }
      else own, other)
  | .release => ({ own with tunnel := own.tunnel.release }, other)

/-- The packet a running bridge is about to give to the endpoint. -/
def unsent (own : End) : List Bytes :=
  match own.tunnel.bridge with
  | .running inbound _ => inbound.held
  | .stopped _ | .aborted => []

/-- The packet a running bridge is about to put into the stream. -/
def unwritten (own : End) : List Bytes :=
  match own.tunnel.bridge with
  | .running _ outbound => outbound.held
  | .stopped _ | .aborted => []

end End

/-- A relay whose tunnels have just been made. -/
def start (left right : SocketAddr) : Sides.Both End := ⟨.new left, .new right⟩

/-- Both ends of a relay, input after input. -/
def exec (limit : Nat) (left right : SocketAddr) (inputs : List (Sides.Side × Input)) :
    Sides.Both End :=
  Run.exec (Sides.step (End.move limit)) (start left right) inputs

end ArcRelay.Relay
