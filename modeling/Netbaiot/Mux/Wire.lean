import Netbaiot.Lib.Bytes

/-!
# Frames of the business protocol

Limits, frame headers and the opening of a stream.  A frame is checked when it is built and
when it is read; an `END_STREAM` flag stands only on DATA and RESPONSE.
-/

namespace Netbaiot.Mux

open Lib

def rpcMaxMetadataBytes : ℕ := 4 * 1024

def rpcHardMaxFramePayloadBytes : ℕ := 16 * 1024

def rpcMaxStreamId : ℕ := 0x7fffffff

def rpcMaxMessageBytes : ℕ := 8 * 1024 * 1024

/-- The types of frames. -/
inductive RpcFrameType where
  | open_
  | accept
  | response
  | data
  | windowUpdate
  | resetStream
  | closeStream
  | ping
  | pong
  | goAway
deriving DecidableEq

/-- Why a frame is refused. -/
inductive RpcWireError where
  | truncated
  | unknownFrameType
  | reserved
  | flags
  | streamId
  | length
  | metadata
  | limits
deriving DecidableEq

/-- Why a connection or a stream fails. -/
inductive MuxError where
  | connection (error : RpcWireError)
  | stream
  | flowControl
  | overloaded
  | messageTooLarge
  | io
  | timeout
deriving DecidableEq

inductive RpcResetCode where
  | cancel
  | refusedStream
  | protocolError
  | flowControlError
  | messageTooLarge
  | streamClosed
  | overloaded
  | internal
deriving DecidableEq

/-- The limits of a connection. -/
structure RpcLimits where
  maxFramePayloadBytes : ℕ
  maxConcurrentStreams : ℕ
  initialStreamWindowBytes : ℕ
  initialConnectionWindowBytes : ℕ
  heartbeatMs : ℕ
deriving DecidableEq

def RpcLimits.default : RpcLimits := ⟨8192, 256, 256 * 1024, 4 * 1024 * 1024, 5000⟩

/-- The limits can be used for a connection. -/
def RpcLimits.validate (l : RpcLimits) : Bool :=
  !(l.maxFramePayloadBytes < 4096 || rpcHardMaxFramePayloadBytes < l.maxFramePayloadBytes
    || l.maxConcurrentStreams = 0 || 4096 < l.maxConcurrentStreams
    || l.initialStreamWindowBytes < l.maxFramePayloadBytes
    || l.initialConnectionWindowBytes < l.initialStreamWindowBytes
    || 2 ^ 31 - 1 < l.initialConnectionWindowBytes
    || l.heartbeatMs = 0 || 60000 < l.heartbeatMs)

/-- A frame without its encoding. -/
structure Frame where
  streamId : ℕ
  frameType : RpcFrameType
  endStream : Bool
  payload : List UInt8
deriving DecidableEq

/-- What a header is checked for: the flag, the stream and the length belong to the type. -/
def Frame.check (f : Frame) (maxFramePayload : ℕ) : Except RpcWireError Unit :=
  let len := f.payload.length
  if f.endStream ∧ f.frameType ≠ .data ∧ f.frameType ≠ .response then .error .flags
  else if rpcMaxStreamId < f.streamId
      ∨ (f.streamId = 0 ∧ f.frameType ∉ [.ping, .pong, .windowUpdate, .goAway])
      ∨ (f.streamId ≠ 0 ∧ f.frameType ∈ [.ping, .pong, .goAway]) then .error .streamId
  else if min maxFramePayload rpcHardMaxFramePayloadBytes < len
      ∨ (f.frameType ≠ .data ∧ rpcMaxMetadataBytes < len)
      ∨ (f.frameType = .windowUpdate ∧ len ≠ 4)
      ∨ (f.frameType ∈ [.ping, .pong] ∧ len ≠ 8)
      ∨ (f.frameType = .closeStream ∧ len ≠ 0)
      ∨ (f.frameType = .data ∧ len = 0 ∧ ¬ f.endStream)
      ∨ (f.frameType ∈ [.open_, .accept, .response, .resetStream, .goAway] ∧ len = 0) then
    .error .length
  else .ok ()

/-- Build a frame. -/
def Frame.new (streamId : ℕ) (frameType : RpcFrameType) (endStream : Bool)
    (payload : List UInt8) (max : ℕ) : Except MuxError Frame :=
  if 2 ^ 32 ≤ payload.length then .error .messageTooLarge
  else
    let frame : Frame := ⟨streamId, frameType, endStream, payload⟩
    match frame.check max with
    | .ok () => .ok frame
    | .error e => .error (.connection e)

/-- A WINDOW_UPDATE of a stream, or of the connection for stream 0. -/
def Frame.windowUpdate (id increment : ℕ) : Frame :=
  ⟨id, .windowUpdate, false, beBytes 4 increment⟩

/-- The increment of a WINDOW_UPDATE. -/
def Frame.increment (f : Frame) : ℕ := ofBeBytes f.payload

/-- What a stream is opened for. -/
inductive RpcOpen where
  | provider (providerId : List UInt8)
  | eventSubscription (subscriptionId : BitVec 128)
  | rpc (parentStreamId : Option ℕ) (requestId : BitVec 128) (method : List UInt8)
      (deadlineMs contentLength : ℕ)
  | eventDelivery (parentStreamId : ℕ) (deliveryId eventId : BitVec 128)
      (attempt contentLength : ℕ)
deriving DecidableEq

def RpcOpen.contentLength : RpcOpen → ℕ
  | .rpc _ _ _ _ contentLength | .eventDelivery _ _ _ _ contentLength => contentLength
  | .provider _ | .eventSubscription _ => 0

def RpcOpen.parent : RpcOpen → Option ℕ
  | .rpc parentStreamId _ _ _ _ => parentStreamId
  | .eventDelivery parentStreamId _ _ _ _ => some parentStreamId
  | _ => none

/-- The side of a connection that opened a stream: the client has odd numbers. -/
inductive Initiator where
  | client
  | server
deriving DecidableEq

def Initiator.owns (side : Initiator) (id : ℕ) : Bool :=
  id ≠ 0 && id ≤ rpcMaxStreamId && (id % 2 = if side = .client then 1 else 0)

def Initiator.opposite : Initiator → Initiator
  | .client => .server
  | .server => .client

inductive StreamKind where
  | provider
  | eventSubscription
  | rpc
  | eventDelivery
deriving DecidableEq

def RpcOpen.kind : RpcOpen → StreamKind
  | .provider _ => .provider
  | .eventSubscription _ => .eventSubscription
  | .rpc .. => .rpc
  | .eventDelivery .. => .eventDelivery

end Netbaiot.Mux
