import Netbaiot.Lib.Table
import Netbaiot.Mux.Wire

/-!
# The scheduler of the writer

The one writer of a connection takes its frames from here.  Control frames go first, but at
most four in a row; bodies are cut into DATA frames as far as the windows and the send-ahead
limits allow, with four turns for calls and one for events.
-/

namespace Netbaiot.Mux

open Lib

/-- DATA of calls and of events. -/
inductive DataClass where
  | rpc
  | event
deriving DecidableEq

/-- How much DATA may be submitted before the peer returns credit. -/
structure SendAheadLimits where
  streamBytes : ℕ
  connectionBytes : ℕ
deriving DecidableEq

def SendAheadLimits.validate (policy : SendAheadLimits) (limits : RpcLimits) : Bool :=
  !(policy.streamBytes < limits.maxFramePayloadBytes
    || policy.connectionBytes < policy.streamBytes
    || 16 * 1024 * 1024 < policy.connectionBytes)

/-- A body and what is sent of it. -/
structure OutboundBody where
  bytes : List UInt8
  cursor : ℕ

/-- The queues of the writer. -/
structure MuxScheduler where
  maxFrame : ℕ
  connWindow : ℕ
  connMax : ℕ
  streamMax : ℕ
  sendAhead : Option SendAheadLimits
  connUncredited : ℕ
  streamUncredited : Table ℕ ℕ
  queuedBytes : ℕ
  byteLimit : ℕ
  control : List Frame
  controlBytes : ℕ
  bodies : Table ℕ OutboundBody
  windows : Table ℕ ℕ
  maxStreams : ℕ
  rpc : List ℕ
  event : List ℕ
  classTurn : ℕ
  controlBurst : ℕ

variable (s : MuxScheduler)

namespace MuxScheduler

def withSendAhead (limits : RpcLimits) (byteLimit : ℕ) (sendAhead : Option SendAheadLimits) :
    Except MuxError MuxScheduler :=
  if !limits.validate then .error (.connection .limits)
  else if sendAhead.any fun policy => !policy.validate limits then .error .flowControl
  else if byteLimit = 0 then .error .overloaded
  else
    .ok
      { maxFrame := limits.maxFramePayloadBytes
        connWindow := limits.initialConnectionWindowBytes
        connMax := limits.initialConnectionWindowBytes
        streamMax := limits.initialStreamWindowBytes
        sendAhead := sendAhead
        connUncredited := 0
        streamUncredited := ∅
        queuedBytes := 0
        byteLimit := byteLimit
        control := []
        controlBytes := 0
        bodies := ∅
        windows := ∅
        maxStreams := limits.maxConcurrentStreams
        rpc := []
        event := []
        classTurn := 0
        controlBurst := 0 }

def queueControl (frame : Frame) : Except MuxError MuxScheduler :=
  let size := frame.payload.length + 12
  if 64 ≤ s.control.length ∨ 64 * 4096 < s.controlBytes + size then .error .overloaded
  else .ok { s with controlBytes := s.controlBytes + size, control := s.control ++ [frame] }

/-- The streams of a class, in the order of their turns. -/
def queue : DataClass → List ℕ
  | .rpc => s.rpc
  | .event => s.event

def setQueue (c : DataClass) (ids : List ℕ) : MuxScheduler :=
  match c with
  | .rpc => { s with rpc := ids }
  | .event => { s with event := ids }

def queueBody (id : ℕ) (c : DataClass) (bytes : List UInt8) : Except MuxError MuxScheduler :=
  if id = 0 ∨ rpcMaxStreamId < id ∨ (s.bodies.lookup id).isSome ∨
      rpcMaxMessageBytes < bytes.length then .error .messageTooLarge
  else
    let total := s.queuedBytes + bytes.length
    if s.byteLimit < total ∨ ((s.windows.lookup id).isNone ∧ s.maxStreams ≤ s.windows.size) then
      .error .overloaded
    else
      let window := (s.windows.lookup id).getD s.streamMax
      let uncredited := (s.streamUncredited.lookup id).getD 0
      let s := { s with
        queuedBytes := total
        windows := s.windows.insert id window
        streamUncredited :=
          if s.sendAhead.isSome then s.streamUncredited.insert id uncredited
          else s.streamUncredited
        bodies := s.bodies.insert id ⟨bytes, 0⟩ }
      .ok (s.setQueue c (s.queue c ++ [id]))

/-- Credit of the peer arrives. -/
def windowUpdate (id increment : ℕ) : Except MuxError MuxScheduler :=
  if increment = 0 then .error .flowControl
  else if id = 0 then
    let window := s.connWindow + increment
    if window ≤ s.connMax then
      .ok { s with connWindow := window, connUncredited := s.connUncredited - increment }
    else .error (.connection .length)
  else
    match s.windows.lookup id with
    | none => .error .stream
    | some current =>
        let window := current + increment
        if window ≤ s.streamMax then
          .ok { s with
            windows := s.windows.insert id window
            streamUncredited :=
              match s.streamUncredited.lookup id with
              | none => s.streamUncredited
              | some outstanding => s.streamUncredited.insert id (outstanding - increment) }
        else .error .flowControl

/-- OPEN or RESPONSE of a stream is still queued, and its DATA must not overtake it. -/
def barred (id : ℕ) : Bool :=
  s.control.any fun frame =>
    frame.streamId = id && (frame.frameType = .open_ || frame.frameType = .response)

/-- The entry that the send-ahead policy keeps for a stream. -/
def trackUncredited (id : ℕ) : MuxScheduler :=
  if s.sendAhead.isSome then
    let outstanding := (s.streamUncredited.lookup id).getD 0
    { s with streamUncredited := s.streamUncredited.insert id outstanding }
  else s

/-- How many of the remaining bytes of a body may be sent now. -/
def allowance (id remaining window : ℕ) : ℕ :=
  let n := min (min (min remaining s.maxFrame) window) s.connWindow
  match s.sendAhead with
  | none => n
  | some policy =>
      let outstanding := (s.streamUncredited.lookup id).getD 0
      min (min n (policy.streamBytes - outstanding)) (policy.connectionBytes - s.connUncredited)

/-- Cut the next DATA frame from a body. -/
def emit (c : DataClass) (id : ℕ) (body : OutboundBody) (window n : ℕ) :
    Option Frame × MuxScheduler :=
  let last : Bool := n = body.bytes.length - body.cursor
  let payload := (body.bytes.drop body.cursor).take n
  let s := { s with
    windows := s.windows.insert id (window - n)
    connWindow := s.connWindow - n }
  let s :=
    if s.sendAhead.isSome then
      let outstanding := (s.streamUncredited.lookup id).getD 0
      { s with
        connUncredited := s.connUncredited + n
        streamUncredited := s.streamUncredited.insert id (outstanding + n) }
    else s
  let s :=
    if last then
      { s with bodies := s.bodies.erase id, queuedBytes := s.queuedBytes - body.bytes.length }
    else
      let sent : OutboundBody := { body with cursor := body.cursor + n }
      let s := { s with bodies := s.bodies.insert id sent }
      s.setQueue c (s.queue c ++ [id])
  ((Frame.new id .data last payload s.maxFrame).toOption, s)

/-- Give each waiting stream of a class at most one turn, until one of them can send. -/
def takeLoop (c : DataClass) : ℕ → MuxScheduler → Option Frame × MuxScheduler
  | 0, s => (none, s)
  | turns + 1, s =>
      match s.queue c with
      | [] => (none, s)
      | id :: rest =>
          let skipped := s.setQueue c rest
          let waiting := s.setQueue c (rest ++ [id])
          match s.bodies.lookup id with
          | none => takeLoop c turns skipped
          | some body =>
              if s.barred id then takeLoop c turns waiting
              else
                match s.windows.lookup id with
                | none => takeLoop c turns skipped
                | some window =>
                    let remaining := body.bytes.length - body.cursor
                    let n := s.allowance id remaining window
                    if n = 0 ∧ remaining ≠ 0 then takeLoop c turns (waiting.trackUncredited id)
                    else (skipped.trackUncredited id).emit c id body window n

def takeData (c : DataClass) : Option Frame × MuxScheduler :=
  takeLoop c (s.queue c).length s

/-- The first control frame leaves the queue. -/
def popControl (frame : Frame) (rest : List Frame) : MuxScheduler :=
  { s with control := rest, controlBytes := s.controlBytes - (frame.payload.length + 12) }

/-- Turns for DATA: four for calls, one for events. -/
def dataTurns : ℕ → MuxScheduler → Option Frame × MuxScheduler
  | 0, s => (none, s)
  | turns + 1, s =>
      let c : DataClass := if s.classTurn < 4 then .rpc else .event
      let s := { s with classTurn := (s.classTurn + 1) % 5 }
      match s.takeData c with
      | (some frame, s) => (some frame, { s with controlBurst := 0 })
      | (none, s) => dataTurns turns s

def nextFrame : Option Frame × MuxScheduler :=
  match s.control with
  | frame :: rest =>
      if s.controlBurst < 4 then
        (some frame, { s.popControl frame rest with controlBurst := s.controlBurst + 1 })
      else
        match dataTurns 5 s with
        | (some data, s) => (some data, s)
        | (none, s) =>
            match s.control with
            | frame :: rest => (some frame, { s.popControl frame rest with controlBurst := 0 })
            | [] => (none, s)
  | [] => dataTurns 5 s

/-- All that is queued for a stream is dropped. -/
def reset (id : ℕ) : MuxScheduler :=
  let held := ((s.bodies.lookup id).map fun body => body.bytes.length).getD 0
  { s with
    queuedBytes := s.queuedBytes - held
    bodies := s.bodies.erase id
    windows := s.windows.erase id
    streamUncredited := s.streamUncredited.erase id
    rpc := s.rpc.filter (· ≠ id)
    event := s.event.filter (· ≠ id) }

end MuxScheduler

end Netbaiot.Mux
