import Netbaiot.Lib.Run
import Netbaiot.Rpc.Registry

/-!
# Calls to the provider

A call takes its permits one after the other, leaves a pending entry under the lock, queues
its request and then waits; each of these is a step of its own, so calls, responses and
changes of the provider interleave in any order.  However a call ends, the guard it holds
removes its pending entry.  `Exchange` is the registry with all calls that are running, and
records every response that was delivered and every call that returned.
-/

namespace Netbaiot.Rpc

open Lib

variable {Body : Type}

/-- The provider and the method a call was issued with. -/
structure Issue where
  epoch : UInt64
  revision : ℕ
  method : Method

/-- How far a call has come, and which permits it holds itself: its slot, then its slot and
bytes, and once its request is charged the bytes of the request.  A pending entry under the
key is removed when the call closes. -/
inductive Stage (Body : Type) where
  | slotTaken
  | admitted
  | issued (key : PendingKey)
  | charged (key : PendingKey)
  | waiting (key : PendingKey)
  | closing (key : PendingKey) (result : Option (Except Error Body))

/-- A running call: what it asked for, what it was issued with, and the reply it received. -/
structure Call (Body : Type) where
  method : Method
  size : ℕ
  stage : Stage Body
  issue : Option Issue
  reply : Option (Except Error Body)

/-- A response that was delivered to a call, with the provider at that moment. -/
structure Completion (Body : Type) where
  call : CallId
  provider : Option Provider
  nowMs : Int64
  method : Method
  result : Except Error Body

/-- A call that returned. -/
structure Returned (Body : Type) where
  call : CallId
  issue : Option Issue
  result : Except Error Body

/-- The registry, the running calls, and what happened so far. -/
structure Exchange (Body : Type) where
  registry : Registry
  calls : Table CallId (Call Body)
  nextCall : CallId
  completions : List (Completion Body)
  returned : List (Returned Body)

/-- The key of the entry that the guard of a call removes. -/
def Stage.guard : Stage Body → Option PendingKey
  | .slotTaken | .admitted => none
  | .issued key | .charged key | .waiting key | .closing key _ => some key

/-- The bytes that a request is charged while it is queued or written. -/
def Call.wireBytes (call : Call Body) : ℕ := call.size + 160

/-- The slots that a call holds itself. -/
def Call.slots (call : Call Body) : ℕ :=
  match call.stage with
  | .slotTaken | .admitted => 1
  | _ => 0

/-- The bytes that a call holds itself. -/
def Call.bytes (call : Call Body) : ℕ :=
  match call.stage with
  | .admitted => call.size
  | .charged _ => call.wireBytes
  | _ => 0

/-- What can happen. -/
inductive Action (Body : Type) where
  | registerWithExpiry (scope : BusinessProviderScope) (expiresAtMs : Option Int64) (instant : ℕ)
  | markServing (epoch : UInt64) (revision : ℕ) (nowMs : Int64) (instant : ℕ)
  | markSyncing (epoch : UInt64) (instant : ℕ)
  | advanceRevision (epoch : UInt64) (revision : ℕ)
  | release (epoch : UInt64) (instant : ℕ)
  | complete (epoch : UInt64) (id : RequestId) (method : Method) (result : Except Error Body)
      (instant : ℕ) (nowMs : Int64)
  | takeSlot (method : Method) (size : ℕ)
  | takeBytes (call : CallId)
  | issue (call : CallId) (id : RequestId) (deadline : ℕ) (nowMs : Int64)
  | charge (call : CallId)
  | trySend (call : CallId) (accepted : Bool)
  | receive (call : CallId)
  | lose (call : CallId) (timeout : Bool)
  | cancel (call : CallId)
  | close (call : CallId) (accepted : Bool)
  | written (index : ℕ)

namespace Exchange

def new (maxPending maxBytes instant : ℕ) : Exchange Body :=
  ⟨.new maxPending maxBytes instant, ∅, 0, [], []⟩

/-- Run an operation of the registry. -/
def onRegistry {α : Type} (x : Exchange Body) (op : RegistryM α) : Exchange Body :=
  { x with registry := (Op.exec op x.registry).2 }

def setCall (x : Exchange Body) (c : CallId) (call : Call Body) : Exchange Body :=
  { x with calls := x.calls.insert c call }

/-- The call returns. -/
def finish (x : Exchange Body) (c : CallId) (call : Call Body) (result : Except Error Body) :
    Exchange Body :=
  { x with calls := x.calls.erase c, returned := ⟨c, call.issue, result⟩ :: x.returned }

/-- Give permits back. -/
def giveBack (x : Exchange Body) (slots bytes : ℕ) : Exchange Body :=
  { x with registry := { x.registry with
      pendingSlots := x.registry.pendingSlots + slots
      pendingBytes := x.registry.pendingBytes + bytes } }

/-- A call begins: its method and size are checked and it takes a slot. -/
def takeSlot (x : Exchange Body) (method : Method) (size : ℕ) : Exchange Body :=
  let c := x.nextCall
  let call : Call Body := ⟨method, size, .slotTaken, none, none⟩
  let x := { x with nextCall := c + 1 }
  match method with
  | .other _ => x.finish c call (.error .invalid)
  | _ =>
      if size = 0 ∨ 16 * 1024 < size ∨ x.registry.pendingSlots = 0 then
        x.finish c call (.error .overloaded)
      else
        { x with
          registry := { x.registry with pendingSlots := x.registry.pendingSlots - 1 } }.setCall
          c call

/-- A call takes the permits for its body. -/
def takeBytes (x : Exchange Body) (c : CallId) (call : Call Body) : Exchange Body :=
  if x.registry.pendingBytes < call.size then (x.giveBack 1 0).finish c call (.error .overloaded)
  else
    { x with registry := { x.registry with
        pendingBytes := x.registry.pendingBytes - call.size } }.setCall c
      { call with stage := .admitted }

/-- A call is issued to the provider: its permits move to a pending entry. -/
def issue (x : Exchange Body) (c : CallId) (call : Call Body) (id : RequestId) (deadline : ℕ)
    (nowMs : Int64) : Exchange Body :=
  match x.registry.provider.filter fun p => p.available nowMs with
  | none => (x.giveBack 1 call.size).finish c call (.error .unavailable)
  | some p =>
      let pending : Pending := ⟨call.method, deadline, p.revision, c, call.size⟩
      { x with registry := x.registry.insertPending (p.epoch, id) pending }.setCall c
        { call with
          stage := .issued (p.epoch, id)
          issue := some ⟨p.epoch, p.revision, call.method⟩ }

/-- An issued call takes the permits for its request. -/
def charge (x : Exchange Body) (c : CallId) (call : Call Body) (key : PendingKey) : Exchange Body :=
  if x.registry.pendingBytes < call.wireBytes then
    x.setCall c { call with stage := .closing key (some (.error .overloaded)) }
  else
    { x with registry := { x.registry with
        pendingBytes := x.registry.pendingBytes - call.wireBytes } }.setCall c
      { call with stage := .charged key }

/-- A charged call queues its request, if the queue accepts it. -/
def trySend (x : Exchange Body) (c : CallId) (call : Call Body) (key : PendingKey)
    (accepted : Bool) : Exchange Body :=
  if accepted then
    let message : BusinessRpcOutbound := ⟨.request key.2 call.method, call.wireBytes⟩
    { x with registry := { x.registry with
        outbound := x.registry.outbound ++ [message] } }.setCall c
      { call with stage := .waiting key }
  else
    (x.giveBack 0 call.wireBytes).setCall c
      { call with stage := .closing key (some (.error .overloaded)) }

/-- The guard of a call is dropped: a pending entry that is still there is removed, and the
provider is told, if there is room for it. -/
def dropGuard (x : Exchange Body) (key : PendingKey) (accepted : Bool) : Exchange Body :=
  if (x.registry.pending.lookup key).isNone then x
  else
    let r := x.registry.dropPending key
    if (r.provider.filter fun p => p.epoch = key.1).isSome ∧ 128 ≤ r.pendingBytes ∧
        accepted = true then
      { x with registry := { r with
          pendingBytes := r.pendingBytes - 128
          outbound := r.outbound ++ [⟨.cancel key.2, 128⟩] } }
    else { x with registry := r }

/-- The call closes: its guard is dropped and it returns its result, if it has one. -/
def close (x : Exchange Body) (c : CallId) (call : Call Body) (key : PendingKey)
    (result : Option (Except Error Body)) (accepted : Bool) : Exchange Body :=
  match result with
  | some result => (x.dropGuard key accepted).finish c call result
  | none => { x.dropGuard key accepted with calls := (x.dropGuard key accepted).calls.erase c }

variable (decode : Method → Body → Option AuthenticatedDeviceWire)

/-- A response arrives and is delivered. -/
def complete (x : Exchange Body) (epoch : UInt64) (id : RequestId) (method : Method)
    (result : Except Error Body) (instant : ℕ) (nowMs : Int64) : Exchange Body :=
  let completed := Rpc.complete decode x.registry epoch id method result instant nowMs
  match completed.1 with
  | none => { x with registry := completed.2 }
  | some (c, reply) =>
      { x with
        registry := completed.2
        calls := x.calls.put c
          ((x.calls.lookup c).map fun call => { call with reply := some reply })
        completions := ⟨c, x.registry.provider, nowMs, method, reply⟩ :: x.completions }

/-- What a call returns for the reply it received. -/
def outcome (method : Method) : Except Error Body → Except Error Body
  | .ok body => if (decode method body).isSome then .ok body else .error .invalid
  | .error e => .error e

/-- The exchange after an action; an action that does not apply changes nothing. -/
def step (x : Exchange Body) : Action Body → Exchange Body
  | .registerWithExpiry scope expiresAtMs instant =>
      x.onRegistry (Rpc.registerWithExpiry scope expiresAtMs instant)
  | .markServing epoch revision nowMs instant =>
      x.onRegistry (Rpc.markServing epoch revision nowMs instant)
  | .markSyncing epoch instant => x.onRegistry (Rpc.markSyncing epoch instant)
  | .advanceRevision epoch revision => x.onRegistry (Rpc.advanceRevision epoch revision)
  | .release epoch instant => x.onRegistry (Rpc.release epoch instant)
  | .complete epoch id method result instant nowMs =>
      x.complete decode epoch id method result instant nowMs
  | .takeSlot method size => x.takeSlot method size
  | .written index =>
      match x.registry.outbound[index]? with
      | none => x
      | some message =>
          { x with registry := { x.registry with
              outbound := x.registry.outbound.eraseIdx index
              pendingBytes := x.registry.pendingBytes + message.bytes } }
  | .takeBytes c =>
      match x.calls.lookup c with
      | some call => match call.stage with
          | .slotTaken => x.takeBytes c call
          | _ => x
      | none => x
  | .issue c id deadline nowMs =>
      match x.calls.lookup c with
      | some call => match call.stage with
          | .admitted => x.issue c call id deadline nowMs
          | _ => x
      | none => x
  | .charge c =>
      match x.calls.lookup c with
      | some call => match call.stage with
          | .issued key => x.charge c call key
          | _ => x
      | none => x
  | .trySend c accepted =>
      match x.calls.lookup c with
      | some call => match call.stage with
          | .charged key => x.trySend c call key accepted
          | _ => x
      | none => x
  | .receive c =>
      match x.calls.lookup c with
      | some call => match call.stage, call.reply with
          | .waiting key, some reply =>
              x.setCall c { call with
                stage := .closing key (some (outcome decode call.method reply)) }
          | _, _ => x
      | none => x
  | .lose c timeout =>
      match x.calls.lookup c with
      | some call => match call.stage, call.reply with
          | .waiting key, none =>
              x.setCall c { call with
                stage := .closing key (some (.error (if timeout then .timeout else .unavailable))) }
          | _, _ => x
      | none => x
  | .cancel c =>
      match x.calls.lookup c with
      | some call => match call.stage with
          | .waiting key => x.setCall c { call with stage := .closing key none }
          | _ => x
      | none => x
  | .close c accepted =>
      match x.calls.lookup c with
      | some call => match call.stage with
          | .closing key result => x.close c call key result accepted
          | _ => x
      | none => x

end Exchange

/-- The exchange under every interleaving of its actions. -/
def exchanging (decode : Method → Body → Option AuthenticatedDeviceWire)
    (maxPending maxBytes : ℕ) : System (Exchange Body) (Action Body) where
  start x := ∃ instant, x = .new maxPending maxBytes instant
  step x a x' := x' = x.step decode a

end Netbaiot.Rpc
