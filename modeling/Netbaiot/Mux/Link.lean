import Netbaiot.Lib.Credit
import Netbaiot.Lib.Run
import Netbaiot.Mux.Endpoint

/-!
# A connection with a conforming peer

The peer sends DATA only within the initial windows and the credit it has received, and
otherwise whatever it likes.  The two directions of the connection keep their order.  Peer,
reader and writer take their steps in any order; the writer puts a frame on the wire in one
step and tells the reader of a credit in a later one.  `connection` and `stream` are the
credit lines of a state; `lost` counts the bytes of DATA that the reader did not accept.
-/

namespace Netbaiot.Mux

open Lib

/-- The credit that a frame gives for a stream, or for the connection as stream 0. -/
def Frame.creditFor (f : Frame) (id : ℕ) : ℕ :=
  if f.frameType = .windowUpdate ∧ f.streamId = id then f.increment else 0

/-- The bytes of DATA in a frame. -/
def Frame.dataBytes (f : Frame) : ℕ := if f.frameType = .data then f.payload.length else 0

/-- The bytes of DATA of a stream in a frame. -/
def Frame.dataOn (f : Frame) (id : ℕ) : ℕ := if f.streamId = id then f.dataBytes else 0

def WriterMessage.creditFor (message : WriterMessage) (id : ℕ) : ℕ :=
  match message with
  | .frame f => f.creditFor id
  | _ => 0

/-- The credit in WINDOW_UPDATE frames that are queued or being written. -/
def Endpoint.owed (e : Endpoint) (id : ℕ) : ℕ :=
  (e.tx.map fun message => message.creditFor id).sum +
    (e.scheduler.control.map fun f => f.creditFor id).sum +
    (e.writing.map fun f => f.creditFor id).getD 0

/-- The credit that was written and is not yet in the window. -/
def Endpoint.unannounced (e : Endpoint) (id : ℕ) : ℕ :=
  (e.credits.map fun c => if c.1 = id then c.2 else 0).sum +
    (e.announcing.map fun c => if c.1 = id then c.2 else 0).getD 0

/-- What a conforming peer keeps count of: the DATA it has sent and the credit it has
received, for the connection and for each stream. -/
structure Peer where
  sent : ℕ
  credit : ℕ
  streamSent : Table ℕ ℕ
  streamCredit : Table ℕ ℕ

/-- The endpoint, its peer and the wire between them. -/
structure Link where
  endpoint : Endpoint
  peer : Peer
  inbound : List Frame
  outbound : List Frame
  lost : ℕ

variable (l : Link) (decode : List UInt8 → Option RpcOpen) (contentLength : List UInt8 → Option ℕ)

namespace Link

def limits (l : Link) : RpcLimits := l.endpoint.table.limits

/-- The credit line of the connection. -/
def connection : CreditLine where
  limit := l.limits.initialConnectionWindowBytes
  sent := l.peer.sent
  inflight := (l.inbound.map Frame.dataBytes).sum
  window := l.endpoint.table.connectionWindow
  queued := l.endpoint.owed 0
  wire := (l.outbound.map fun f => f.creditFor 0).sum
  pending := l.endpoint.unannounced 0
  credit := l.peer.credit

/-- The credit line of a stream; the window of a stream that is not open is the initial one. -/
def stream (id : ℕ) : CreditLine where
  limit := l.limits.initialStreamWindowBytes
  sent := (l.peer.streamSent.lookup id).getD 0
  inflight := (l.inbound.map fun f => f.dataOn id).sum
  window := ((l.endpoint.table.streams.lookup id).map Stream.recvWindow).getD
    l.limits.initialStreamWindowBytes
  queued := l.endpoint.owed id
  wire := (l.outbound.map fun f => f.creditFor id).sum
  pending := l.endpoint.unannounced id
  credit := (l.peer.streamCredit.lookup id).getD 0

/-- What can happen. -/
inductive Action where
  | sendNotice (id : ℕ) (notice : Notice)
  | sendUpdate (id increment : ℕ)
  | sendData (id : ℕ) (bytes : List UInt8) (last : Bool)
  | arrive
  | read (v : Verdict)
  | readCredit
  | task (t : Endpoint.Task)
  | takeMessage
  | select
  | write
  | announce

/-- The peer puts a frame on the wire. -/
def push (f : Frame) : Link := { l with inbound := l.inbound ++ [f] }

/-- The peer sends DATA if the connection and the stream have room for it. -/
def sendData (id : ℕ) (bytes : List UInt8) (last : Bool) : Link :=
  let n := bytes.length
  if n ≤ l.connection.available ∧ n ≤ (l.stream id).available then
    let peer := { l.peer with
      sent := l.peer.sent + n
      streamSent := l.peer.streamSent.insert id ((l.peer.streamSent.lookup id).getD 0 + n) }
    { l with peer := peer }.push ⟨id, .data, last, bytes⟩
  else l

/-- The peer takes a frame, and with a WINDOW_UPDATE the credit in it. -/
def arrive (f : Frame) (rest : List Frame) : Link :=
  let l := { l with outbound := rest }
  if f.frameType = .windowUpdate then
    let n := f.increment
    let peer :=
      if f.streamId = 0 then { l.peer with credit := l.peer.credit + n }
      else { l.peer with
        streamCredit := l.peer.streamCredit.insert f.streamId
          ((l.peer.streamCredit.lookup f.streamId).getD 0 + n) }
    { l with peer := peer }
  else l

/-- The table accepts a DATA frame. -/
def accepts (f : Frame) : Bool :=
  (l.endpoint.table.receiveData f.streamId f.payload f.endStream).toBool

/-- The reader takes a frame. -/
def read (v : Verdict) (f : Frame) (rest : List Frame) : Link :=
  let refused := if l.accepts f then 0 else f.dataBytes
  { l with
    endpoint := l.endpoint.onFrame decode contentLength f v
    inbound := rest
    lost := l.lost + refused }

/-- The writer has nothing at hand. -/
def writerFree : Bool := l.endpoint.writing.isNone && l.endpoint.announcing.isNone

def setEndpoint (e : Endpoint) : Link := { l with endpoint := e }

def step (a : Action) : Link :=
  if !l.endpoint.running then l
  else
    match a with
    | .sendNotice id notice => l.push (notice.frame id)
    | .sendUpdate id increment => l.push (.windowUpdate id increment)
    | .sendData id bytes last => l.sendData id bytes last
    | .arrive =>
        match l.outbound with
        | [] => l
        | f :: rest => l.arrive f rest
    | .read v =>
        match l.inbound with
        | [] => l
        | f :: rest => l.read decode contentLength v f rest
    | .readCredit =>
        match l.endpoint.credits with
        | [] => l
        | (id, increment) :: rest =>
            l.setEndpoint ({ l.endpoint with credits := rest }.onCredit id increment)
    | .task t => l.setEndpoint (l.endpoint.onTask t)
    | .takeMessage =>
        match l.writerFree, l.endpoint.tx with
        | true, message :: rest => l.setEndpoint (l.endpoint.applyWriterMessage message rest)
        | _, _ => l
    | .select => if l.writerFree then l.setEndpoint l.endpoint.select else l
    | .write =>
        match l.endpoint.writing with
        | none => l
        | some f => { l.setEndpoint (l.endpoint.written f) with outbound := l.outbound ++ [f] }
    | .announce =>
        match l.endpoint.announcing with
        | some credit =>
            if l.endpoint.credits.length < channelCapacity then
              l.setEndpoint { l.endpoint with
                announcing := none, credits := l.endpoint.credits ++ [credit] }
            else l
        | none => l

end Link

/-- A connection before anything happened on it. -/
def Link.Fresh : Prop :=
  ∃ side limits connectionBudget globalBudget byteLimit sendAhead table scheduler,
    StreamTable.new side limits connectionBudget globalBudget = .ok table ∧
      MuxScheduler.withSendAhead limits byteLimit sendAhead = .ok scheduler ∧
      l = ⟨⟨table, [], scheduler, none, none, [], true⟩, ⟨0, 0, ∅, ∅⟩, [], [], 0⟩

/-- Reader, writer and a conforming peer in any order. -/
def linking :
    System Link Link.Action where
  start := Link.Fresh
  step l a l' := l' = l.step decode contentLength a

end Netbaiot.Mux
