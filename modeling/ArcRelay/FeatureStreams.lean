import ArcRelay.Lib.JoinSet
import ArcRelay.Pairing

/-!
# Feature streams

A feature opens a QUIC stream of a session and sends a header on it. At the other end
`accept_feature_stream` reads up to eight headers at the same time, in tasks that belong to
the session: a caller that gives up leaves them to the next one. Only one caller at a time
goes through the loop, the others wait for the lock in the order they came.
-/

namespace ArcRelay

/-- `session::FeatureStream`. The stream stands for its two halves. -/
structure FeatureStream where
  featureId : String
  openingPayload : Bytes
  featureMajor : UInt32
  minFeatureMinor : UInt32
  maxFeatureMinor : UInt32
  streamId : UInt64
  operation : String
  /-- `send` and `receive`, the place of the stream among those the peer has opened. -/
  stream : Nat
deriving DecidableEq, Repr

/-- A stream with the fields of its header. -/
def FeatureStream.ofHeader (header : FeaturePayload) (stream : Nat) : FeatureStream where
  featureId := header.featureId
  openingPayload := header.body
  featureMajor := header.featureMajor
  minFeatureMinor := header.minFeatureMinor
  maxFeatureMinor := header.maxFeatureMinor
  streamId := header.streamId
  operation := header.operation
  stream := stream

/-- `FeatureStream::negotiate_minor`. -/
def FeatureStream.negotiateMinor (feature : FeatureStream)
    (supportedMajor supportedMinMinor supportedMaxMinor : UInt32) : Except NetworkError UInt32 :=
  if feature.featureMajor ≠ supportedMajor ∨ supportedMinMinor > supportedMaxMinor then
    .error (.protocol "unsupported feature major version")
  else
    let minimum := max feature.minFeatureMinor supportedMinMinor
    let maximum := min feature.maxFeatureMinor supportedMaxMinor
    if minimum ≤ maximum then .ok maximum
    else .error (.protocol "no compatible feature minor version")

/-- What is said to the peer about a stream. -/
inductive Signal where
  /-- `SendStream::reset`. -/
  | reset (code : Nat)
  /-- `RecvStream::stop`. -/
  | stop (code : Nat)
deriving DecidableEq, Repr

/-- The signals of a stream that is refused. -/
def refusal : List Signal := [.reset 400, .stop 400]

/-- The checks of `read_feature_header`. -/
def validHeader (header : FeaturePayload) : Bool :=
  !(!validFeatureId header.featureId || header.featureMajor == 0
    || header.minFeatureMinor > header.maxFeatureMinor || header.streamId == 0
    || !validOperation header.operation)

/-- `receive_message_with_limit` of a header, on the frame that was read. -/
def headerOf (decode : Bytes → Except String FeaturePayload) (frame : Except NetworkError Bytes) :
    Except NetworkError FeaturePayload := do
  let bytes ← frame
  (decode bytes).mapError .protocol

/-- `Session::read_feature_header` on a stream, given the frame it has read within five seconds, and
what it says to the peer. -/
def readFeatureHeader (decode : Bytes → Except String FeaturePayload) (stream : Nat)
    (frame : Option (Except NetworkError Bytes)) :
    Except NetworkError FeatureStream × List Signal :=
  match frame.map (headerOf decode) with
  | none => (.error .timeout, refusal)
  | some (.error error) => (.error error, refusal)
  | some (.ok header) =>
    if validHeader header then (.ok (.ofHeader header stream), [])
    else (.error (.protocol "invalid feature stream header"), refusal)

/-- A call of `accept_feature_stream`. -/
inductive Caller where
  | waiting
  /-- It has the lock and goes through the loop. -/
  | accepting
  | returned (result : Except NetworkError FeatureStream)
  | dropped

namespace Caller

/-- It has the lock. -/
def isAccepting : Caller → Bool
  | .accepting => true
  | _ => false

/-- It waits for the lock. -/
def isWaiting : Caller → Bool
  | .waiting => true
  | _ => false

/-- It is given up, if it has not returned. -/
def drop : Caller → Caller
  | .returned result => .returned result
  | _ => .dropped

end Caller

/-- The tasks that read headers. -/
abbrev HeaderTask := JoinSet.Task Nat (Except NetworkError FeatureStream)

/-- The incoming feature streams of a session. -/
structure Acceptor where
  opened : Nat
  /-- Those that have not been accepted, oldest first. -/
  incoming : List Nat
  closed : Option String
  pendingHeaders : List HeaderTask
  /-- The calls of `accept_feature_stream`, in the order they were made. -/
  callers : List Caller
  /-- What was said to the peer about its streams. -/
  signals : List (Nat × Signal)

/-- What the `select!` of `accept_feature_stream` completes with. -/
inductive Selected where
  | closed (reason : String)
  | joined (result : Except NetworkError FeatureStream) (pendingHeaders : List HeaderTask)
  | accepted (stream : Nat) (incoming : List Nat)
  | lost (reason : String)
  | nothing

namespace Acceptor

variable (decode : Bytes → Except String FeaturePayload) (acceptor : Acceptor)

/-- A session that has just been established. -/
def start : Acceptor := ⟨0, [], none, [], [], []⟩

/-- The `select!`, whose branches are polled in order: `closed`, then `join_next`, then `accept_bi`
if fewer than eight headers are being read. The connection may be lost between the first branch and
the last. -/
def select (choice : Nat) (lost : Option String) : Selected :=
  match acceptor.closed with
  | some reason => .closed reason
  | none =>
    match JoinSet.joinNext choice acceptor.pendingHeaders with
    | some (joined, rest) => .joined joined.2 rest
    | none =>
      if acceptor.pendingHeaders.length < 8 then
        match lost, acceptor.incoming with
        | some reason, _ => .lost reason
        | none, stream :: later => .accepted stream later
        | none, [] => .nothing
      else .nothing

/-- A caller returns, and with it goes the lock. -/
def finish (caller : Nat) (result : Except NetworkError FeatureStream) : Acceptor :=
  { acceptor with callers := acceptor.callers.set caller (.returned result) }

/-- One turn of the loop of `accept_feature_stream`. -/
def turn (choice : Nat) (lost : Option String) : Acceptor :=
  match acceptor.callers.findIdx? Caller.isAccepting with
  | none => acceptor
  | some caller =>
    match acceptor.select choice lost with
    | .closed reason => acceptor.finish caller (.error (.quic reason))
    | .joined (.ok feature) pendingHeaders =>
      { acceptor with pendingHeaders }.finish caller (.ok feature)
    | .joined (.error _) pendingHeaders => { acceptor with pendingHeaders }
    | .accepted stream incoming =>
      { acceptor with
        incoming
        pendingHeaders := acceptor.pendingHeaders ++ [⟨stream, none⟩] }
    | .lost reason =>
      { acceptor with closed := some reason }.finish caller (.error (.quic reason))
    | .nothing => acceptor

/-- The lock goes to the caller that has waited longest, if it is free. -/
def lock : Acceptor :=
  if acceptor.callers.any Caller.isAccepting then acceptor
  else
    match acceptor.callers.findIdx? Caller.isWaiting with
    | none => acceptor
    | some caller => { acceptor with callers := acceptor.callers.set caller .accepting }

/-- A header task ends, and tells the peer if it refuses the stream. -/
def header (index : Nat) (frame : Option (Except NetworkError Bytes)) : Acceptor :=
  match acceptor.pendingHeaders[index]? with
  | some ⟨stream, none⟩ =>
    { acceptor with
      pendingHeaders := JoinSet.finish acceptor.pendingHeaders index fun stream =>
        (readFeatureHeader decode stream frame).1
      signals := acceptor.signals ++
        (readFeatureHeader decode stream frame).2.map fun signal => (stream, signal) }
  | _ => acceptor

/-- One thing that happens to the session. -/
inductive Input where
  | opens
  | closes (reason : String)
  /-- `accept_feature_stream` is called. -/
  | call
  | lock
  | turn (choice : Nat) (lost : Option String)
  /-- A header task has read a frame, has failed to, or has waited for too long. -/
  | header (index : Nat) (frame : Option (Except NetworkError Bytes))
  | drop (caller : Nat)

/-- One step. -/
def step (acceptor : Acceptor) : Input → Acceptor
  | .opens =>
    if acceptor.closed.isSome then acceptor
    else { acceptor with
      opened := acceptor.opened + 1
      incoming := acceptor.incoming ++ [acceptor.opened] }
  | .closes reason => { acceptor with closed := acceptor.closed.or (some reason) }
  | .call => { acceptor with callers := acceptor.callers ++ [.waiting] }
  | .lock => acceptor.lock
  | .turn choice lost => acceptor.turn choice lost
  | .header index frame => acceptor.header decode index frame
  | .drop caller => { acceptor with callers := acceptor.callers.modify caller Caller.drop }

end Acceptor

end ArcRelay
