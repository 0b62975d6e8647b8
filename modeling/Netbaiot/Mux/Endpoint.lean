import Netbaiot.Mux.Scheduler
import Netbaiot.Mux.StreamTable

/-!
# The reader and the writer of a connection

The reader owns the stream table, handles one frame or one event at a time and hands what it
wants to send to the writer.  The writer owns the scheduler; after it has written a
WINDOW_UPDATE it tells the reader, which only then restores the window.  So a credit update
is on the wire before the window knows of it, and the two tasks run in any order.
What the reader decides on behalf of the application is an argument here: whether a stream is
admitted, whether a response is expected, and when streams are opened, answered or closed.
This is the read loop of the gateway; the client library has one of its own, which is not
modelled.
-/

namespace Netbaiot.Mux

open Lib

/-- What the reader hands to the writer. -/
inductive WriterMessage where
  | frame (frame : Frame)
  | body (id : ℕ) (c : DataClass) (bytes : List UInt8)
  | windowUpdate (id increment : ℕ)
  | reset (id : ℕ)

/-- The two tasks of one side, and the channels between them.  The writer is writing at most
one frame; `announcing` is a credit that it has written and not yet told the reader. -/
structure Endpoint where
  table : StreamTable
  tx : List WriterMessage
  scheduler : MuxScheduler
  writing : Option Frame
  announcing : Option (ℕ × ℕ)
  credits : List (ℕ × ℕ)
  running : Bool

/-- The channels between the tasks hold this many messages. -/
def channelCapacity : ℕ := 256

/-- A frame that carries neither DATA nor credit. -/
structure Notice where
  frameType : RpcFrameType
  endStream : Bool
  payload : List UInt8
  plain : frameType ≠ .data ∧ frameType ≠ .windowUpdate

def Notice.frame (notice : Notice) (id : ℕ) : Frame :=
  ⟨id, notice.frameType, notice.endStream, notice.payload⟩

/-- What the application decides about a frame: whether a stream is admitted and kept, and
whether metadata is well formed and expected; and the metadata that is answered. -/
structure Verdict where
  admitted : Bool
  keep : Bool
  valid : Bool
  expected : Bool
  reply : Notice

/-- The code of a RESET for an error of one stream; other errors end the connection. -/
def classifyStreamError : MuxError → Option RpcResetCode
  | .connection _ | .io | .timeout => none
  | .overloaded => some .overloaded
  | .messageTooLarge => some .messageTooLarge
  | .flowControl => some .flowControlError
  | .stream => some .protocolError

variable (e : Endpoint)

namespace Endpoint

/-- The connection ends. -/
def fail : Endpoint := { e with running := false }

/-- A message for the writer that the reader does not insist on. -/
def offer (message : WriterMessage) : Endpoint :=
  if e.tx.length < channelCapacity then { e with tx := e.tx ++ [message] } else e

/-- A message for the writer; without room for it the connection ends. -/
def post (message : WriterMessage) : Endpoint :=
  if e.tx.length < channelCapacity then { e with tx := e.tx ++ [message] } else e.fail

def send (frame : Frame) : Endpoint :=
  match Frame.new frame.streamId frame.frameType frame.endStream frame.payload
      e.table.limits.maxFramePayloadBytes with
  | .ok frame => e.post (.frame frame)
  | .error _ => e.fail

/-- A stream and those under it end, and what is queued for them is dropped. -/
def closeStream (id : ℕ) : Endpoint :=
  match e.table.reset id with
  | .error _ => e.offer (.reset id)
  | .ok (children, table) =>
      (id :: children).foldl (fun e child => e.offer (.reset child)) { e with table := table }

/-- An operation of the table failed: the stream is reset, or the connection ends. -/
def refuse (id : ℕ) (error : MuxError) (reply : Notice) : Endpoint :=
  match classifyStreamError error with
  | some _ => e.send (reply.frame id)
  | none => e.fail

/-- An OPEN arrives. -/
def onOpen (decode : List UInt8 → Option RpcOpen) (frame : Frame) (v : Verdict) : Endpoint :=
  let id := frame.streamId
  match e.table.checkPeerId id, decode frame.payload with
  | .error _, _ => e.fail
  | .ok (), some request =>
      if v.admitted then
        match e.table.openPeer id request with
        | (.error error, table) => { e with table := table }.refuse id error v.reply
        | (.ok (), table) =>
            if v.keep then
              if request.kind = .rpc then { e with table := table }
              else { e with table := table }.send (v.reply.frame id)
            else { e with table := (table.closeParent id).2 }.send (v.reply.frame id)
      else
        match e.table.refusePeer id with
        | .error _ => e.fail
        | .ok table => { e with table := table }.send (v.reply.frame id)
  | .ok (), none =>
      match e.table.refusePeer id with
      | .error _ => e.fail
      | .ok table => { e with table := table }.send (v.reply.frame id)

/-- Credit for DATA that was accepted. -/
def returnCredit (id : ℕ) (received : ReceivedData) : Endpoint :=
  if 0 < received.connectionUpdate then
    let e := e.send (.windowUpdate 0 received.connectionUpdate)
    if 0 < received.streamUpdate then e.send (.windowUpdate id received.streamUpdate) else e
  else e

/-- DATA arrives.  Only DATA that the table accepts is answered with credit. -/
def onData (frame : Frame) (v : Verdict) : Endpoint :=
  let id := frame.streamId
  match e.table.receiveData id frame.payload frame.endStream with
  | .ok (received, table) => { e with table := table }.returnCredit id received
  | .error error =>
      match classifyStreamError error with
      | some _ => (e.closeStream id).send (v.reply.frame id)
      | none => e.fail

/-- A RESPONSE arrives; without a body it also ends the stream. -/
def onResponse (contentLength : List UInt8 → Option ℕ) (frame : Frame) (v : Verdict) : Endpoint :=
  let id := frame.streamId
  match contentLength frame.payload with
  | none => (e.closeStream id).send (v.reply.frame id)
  | some expected =>
      if !v.expected then e.send (v.reply.frame id)
      else
        match e.table.markResponse id expected with
        | .error error =>
            match classifyStreamError error with
            | some _ => (e.closeStream id).send (v.reply.frame id)
            | none => e.fail
        | .ok table =>
            let e := { e with table := table }
            if frame.endStream then
              match e.table.receiveData id [] true with
              | .ok (_, table) => { e with table := table }
              | .error _ => (e.closeStream id).send (v.reply.frame id)
            else e

/-- The reader handles a frame. -/
def onFrame (decode : List UInt8 → Option RpcOpen)
    (contentLength : List UInt8 → Option ℕ) (frame : Frame) (v : Verdict) : Endpoint :=
  match frame.check e.table.limits.maxFramePayloadBytes with
  | .error _ => e.fail
  | .ok () =>
      match frame.frameType with
      | .open_ => e.onOpen decode frame v
      | .data => e.onData frame v
      | .response => e.onResponse contentLength frame v
      | .windowUpdate =>
          if frame.increment = 0 then e.fail
          else e.post (.windowUpdate frame.streamId frame.increment)
      | .ping | .accept => e.send (v.reply.frame frame.streamId)
      | .resetStream | .closeStream => if v.valid then e.closeStream frame.streamId else e.fail
      | .pong | .goAway => if v.valid then e else e.fail

/-- The reader restores a window with a credit that was written. -/
def onCredit (id increment : ℕ) : Endpoint :=
  match e.table.grantCredit id increment with
  | .ok table => { e with table := table }
  | .error .stream => e
  | .error _ => e.fail

/-- What the application makes the reader do between frames. -/
inductive Task where
  | openLocal (request : RpcOpen)
  | markLocalEnd (id : ℕ)
  | reset (id : ℕ)
  | closeStream (id : ℕ)
  | notice (id : ℕ) (notice : Notice)
  | body (id : ℕ) (c : DataClass) (bytes : List UInt8)
  | goaway
  | otherConnections (used : ℕ)

def onTask : Task → Endpoint
  | .openLocal request =>
      match e.table.openLocal request with
      | .ok (_, table) => { e with table := table }
      | .error _ => e
  | .markLocalEnd id =>
      match e.table.markLocalEnd id with
      | .ok table => { e with table := table }
      | .error _ => e
  | .reset id =>
      match e.table.reset id with
      | .ok (_, table) => { e with table := table }
      | .error _ => e
  | .closeStream id => e.closeStream id
  | .notice id notice => e.send (notice.frame id)
  | .body id c bytes => e.offer (.body id c bytes)
  | .goaway => { e with table := e.table.goaway }
  | .otherConnections used =>
      { e with
        table := { e.table with globalBudget := { e.table.globalBudget with used := used } } }

/-- The writer takes a message. -/
def applyWriterMessage (message : WriterMessage) (rest : List WriterMessage) : Endpoint :=
  let e := { e with tx := rest }
  match message with
  | .frame frame =>
      match e.scheduler.queueControl frame with
      | .ok scheduler => { e with scheduler := scheduler }
      | .error _ => e.fail
  | .body id c bytes =>
      match e.scheduler.queueBody id c bytes with
      | .ok scheduler => { e with scheduler := scheduler }
      | .error _ => e.fail
  | .windowUpdate id increment =>
      match e.scheduler.windowUpdate id increment with
      | .ok scheduler => { e with scheduler := scheduler }
      | .error .stream => e
      | .error _ => e.fail
  | .reset id => { e with scheduler := e.scheduler.reset id }

/-- The writer chooses the frame it writes next. -/
def select : Endpoint :=
  match e.scheduler.nextFrame with
  | (some frame, scheduler) => { e with scheduler := scheduler, writing := some frame }
  | (none, scheduler) => { e with scheduler := scheduler }

/-- A frame was written: a credit is announced to the reader, and a body that is complete
leaves the scheduler. -/
def written (frame : Frame) : Endpoint :=
  let e := { e with writing := none }
  let e :=
    if frame.frameType = .windowUpdate then
      { e with announcing := some (frame.streamId, frame.increment) }
    else e
  if frame.frameType = .data ∧ frame.endStream then
    { e with scheduler := e.scheduler.reset frame.streamId }
  else e

end Endpoint

end Netbaiot.Mux
