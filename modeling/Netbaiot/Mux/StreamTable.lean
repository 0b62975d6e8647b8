import Netbaiot.Lib.Op
import Netbaiot.Lib.Table
import Netbaiot.Mux.Wire

/-!
# Streams of a connection

The table of one side of a connection: which streams are open, how much of their bodies was
received, and how much the peer may still send.  Peer streams are numbered upwards, so the
highest number that was considered stands for all closed ones.  Declared body sizes are
reserved in the budget of the connection and in one that all connections share.
-/

namespace Netbaiot.Mux

open Lib

/-- The budget for bodies that are being received, shared by all connections. -/
structure ReassemblyBudget where
  max : ℕ
  used : ℕ

/-- A body that is being received. -/
structure ReceiveBody where
  expected : ℕ
  bytes : List UInt8

/-- One stream. -/
structure Stream where
  kind : StreamKind
  parent : Option ℕ
  remoteClosed : Bool
  localClosed : Bool
  responseSeen : Bool
  body : Option ReceiveBody
  recvWindow : ℕ

/-- What a DATA frame completes, and the credit to return for it. -/
structure ReceivedData where
  complete : Option (List UInt8)
  connectionUpdate : ℕ
  streamUpdate : ℕ

/-- The streams of a connection. -/
structure StreamTable where
  side : Initiator
  highestPeer : ℕ
  nextLocal : ℕ
  limits : RpcLimits
  streams : Table ℕ Stream
  connectionWindow : ℕ
  connectionReserved : ℕ
  connectionBudget : ℕ
  globalBudget : ReassemblyBudget
  accepting : Bool

namespace ReassemblyBudget

def reserve (b : ReassemblyBudget) (bytes : ℕ) : Except MuxError ReassemblyBudget :=
  if b.used + bytes ≤ b.max then .ok { b with used := b.used + bytes } else .error .overloaded

/-- A reservation is dropped. -/
def release (b : ReassemblyBudget) (bytes : ℕ) : ReassemblyBudget :=
  { b with used := b.used - bytes }

end ReassemblyBudget

variable (t : StreamTable)

namespace StreamTable

def new (side : Initiator) (limits : RpcLimits) (connectionBudget : ℕ)
    (globalBudget : ReassemblyBudget) : Except MuxError StreamTable :=
  if !limits.validate then .error (.connection .limits)
  else if connectionBudget = 0 ∨ globalBudget.max < connectionBudget then .error .overloaded
  else
    .ok
      { side := side
        highestPeer := 0
        nextLocal := if side = .client then 1 else 2
        connectionWindow := limits.initialConnectionWindowBytes
        limits := limits
        streams := ∅
        connectionReserved := 0
        connectionBudget := connectionBudget
        globalBudget := globalBudget
        accepting := true }

/-- No further streams are accepted. -/
def goaway : StreamTable := { t with accepting := false }

def checkPeerId (id : ℕ) : Except MuxError Unit :=
  if ¬ t.side.opposite.owns id ∨ id ≤ t.highestPeer then .error (.connection .streamId)
  else if ¬ t.accepting then .error .stream
  else .ok ()

/-- The methods that are called under a provider stream only. -/
def providerMethod (method : List UInt8) : Bool :=
  (ascii "auth.").isPrefixOf method || (ascii "device.authenticate").isPrefixOf method ||
    method = ascii "device.resolve_verifier"

/-- The parent of a stream is open and of the right kind. -/
def checkParent (request : RpcOpen) : Except MuxError Unit :=
  match request.parent with
  | none => .ok ()
  | some parent =>
      match t.streams.lookup parent with
      | none => .error .stream
      | some owner =>
          if owner.remoteClosed ∨ owner.localClosed then .error .stream
          else
            match request with
            | .eventDelivery .. =>
                if owner.kind = .eventSubscription then .ok () else .error .stream
            | .rpc _ _ method _ _ =>
                if providerMethod method ∧ owner.kind ≠ .provider then .error .stream else .ok ()
            | _ => .error .stream

/-- A new stream takes its place in the table, with its body reserved if it is inbound. -/
def insert (t : StreamTable) (id : ℕ) (request : RpcOpen) (inbound : Bool) :
    Except MuxError StreamTable := do
  check (t.streams.size < t.limits.maxConcurrentStreams) .overloaded
  t.checkParent request
  let length := if inbound then request.contentLength else 0
  check (length ≤ rpcMaxMessageBytes) .messageTooLarge
  let reserved := t.connectionReserved + length
  check (reserved ≤ t.connectionBudget) .overloaded
  let budget ← t.globalBudget.reserve length
  let body : Option ReceiveBody :=
    if inbound ∧ request.kind ∈ [.rpc, .eventDelivery] then some ⟨length, []⟩ else none
  return { t with
    connectionReserved := reserved
    globalBudget := if body.isSome then budget else budget.release length
    streams := t.streams.insert id
      ⟨request.kind, request.parent, false, false, false, body, t.limits.initialStreamWindowBytes⟩ }

/-- A number that the peer used is consumed, also if the stream is refused. -/
def refusePeer (id : ℕ) : Except MuxError StreamTable := do
  t.checkPeerId id
  return { t with highestPeer := id }

/-- Admit a stream of the peer.  A stream that is not admitted still consumes its number. -/
def openPeer (id : ℕ) (request : RpcOpen) : Except MuxError Unit × StreamTable :=
  match t.refusePeer id with
  | .error e => (.error e, t)
  | .ok considered =>
      match considered.insert id request true with
      | .error e => (.error e, considered)
      | .ok admitted => (.ok (), admitted)

def openLocal (request : RpcOpen) : Except MuxError (ℕ × StreamTable) := do
  let id := t.nextLocal
  check (t.accepting ∧ id ≤ rpcMaxStreamId) .stream
  let opened ← t.insert id request false
  return (id, { opened with nextLocal := id + 2 })

/-- A stream leaves the table and drops the reservation of its body. -/
def remove (id : ℕ) : StreamTable :=
  match t.streams.lookup id with
  | none => t
  | some stream =>
      let held := (stream.body.map ReceiveBody.expected).getD 0
      { t with
        streams := t.streams.erase id
        connectionReserved := t.connectionReserved - held
        globalBudget := t.globalBudget.release held }

/-- The table after bytes of a body were accepted. -/
def accept (id : ℕ) (stream : Stream) (body : ReceiveBody)
    (bytes : List UInt8) (last : Bool) : StreamTable :=
  let window := stream.recvWindow - bytes.length
  let t := { t with connectionWindow := t.connectionWindow - bytes.length }
  if last then
    let closed : Stream := { stream with recvWindow := window, remoteClosed := true, body := none }
    let t := { t with
      streams := t.streams.insert id closed
      connectionReserved := t.connectionReserved - body.expected
      globalBudget := t.globalBudget.release body.expected }
    if stream.localClosed then t.remove id else t
  else
    let grown : ReceiveBody := { body with bytes := body.bytes ++ bytes }
    { t with
      streams := t.streams.insert id { stream with recvWindow := window, body := some grown } }

/-- A DATA frame arrives. -/
def receiveData (id : ℕ) (bytes : List UInt8) (last : Bool) :
    Except MuxError (ReceivedData × StreamTable) :=
  match t.streams.lookup id with
  | none => .error .stream
  | some stream =>
      if stream.remoteClosed then .error .stream
      else
        match stream.body with
        | none => .error .stream
        | some body =>
            let length := bytes.length
            let next := body.bytes.length + length
            if 2 ^ 32 ≤ length then .error .messageTooLarge
            else if t.connectionWindow < length then .error (.connection .length)
            else if stream.recvWindow < length then .error .flowControl
            else if body.expected < next then .error .messageTooLarge
            else if last ∧ next ≠ body.expected then .error .stream
            else
              -- receive credit is restored only after the WINDOW_UPDATE was written
              .ok (⟨if last then some (body.bytes ++ bytes) else none, length,
                if last then 0 else length⟩, t.accept id stream body bytes last)

/-- Written credit is restored. -/
def grantCredit (id increment : ℕ) : Except MuxError StreamTable :=
  if increment = 0 then .error .flowControl
  else if id = 0 then
    let window := t.connectionWindow + increment
    if window ≤ t.limits.initialConnectionWindowBytes then
      .ok { t with connectionWindow := window }
    else .error (.connection .length)
  else
    match t.streams.lookup id with
    | none => .error .stream
    | some stream =>
        let window := stream.recvWindow + increment
        if window ≤ t.limits.initialStreamWindowBytes then
          .ok { t with streams := t.streams.insert id { stream with recvWindow := window } }
        else .error .flowControl

/-- The metadata of the answer on a local stream arrives, with the size of its body. -/
def markResponse (id expected : ℕ) : Except MuxError StreamTable :=
  match t.streams.lookup id with
  | none => .error .stream
  | some stream =>
      if stream.responseSeen ∨ stream.body.isSome ∨ ¬ stream.localClosed ∨
          rpcMaxMessageBytes < expected then .error .stream
      else do
        let reserved := t.connectionReserved + expected
        check (reserved ≤ t.connectionBudget) .overloaded
        let budget ← t.globalBudget.reserve expected
        return { t with
          connectionReserved := reserved
          globalBudget := budget
          streams := t.streams.insert id
            { stream with body := some ⟨expected, []⟩, responseSeen := true } }

/-- This side has sent all it will send on a stream. -/
def markLocalEnd (id : ℕ) : Except MuxError StreamTable :=
  match t.streams.lookup id with
  | none => .error .stream
  | some stream =>
      if stream.localClosed then .error .stream
      else
        let t := { t with streams := t.streams.insert id { stream with localClosed := true } }
        .ok (if stream.remoteClosed then t.remove id else t)

/-- The streams that were opened under a stream. -/
def childrenOf (id : ℕ) : List ℕ :=
  t.streams.keys.filter fun child =>
    (t.streams.lookup child).any fun stream => stream.parent = some id

/-- Remove a stream, and with a parent stream all that were opened under it. -/
def closeParent (id : ℕ) : List ℕ × StreamTable :=
  let children :=
    if (t.streams.lookup id).any fun s => s.kind = .provider ∨ s.kind = .eventSubscription then
      t.childrenOf id
    else []
  (children, (children.foldl remove t).remove id)

def reset (id : ℕ) : Except MuxError (List ℕ × StreamTable) :=
  if (t.streams.lookup id).isSome then .ok (t.closeParent id) else .error .stream

end StreamTable

end Netbaiot.Mux
