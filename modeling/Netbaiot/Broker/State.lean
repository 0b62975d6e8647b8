import Mathlib.Data.Prod.Lex
import Netbaiot.Broker.Session
import Netbaiot.Broker.Trie

/-!
# The state behind the broker lock

The broker owns its sessions together with cached counters, the retained messages, the
Wills it accepted, the index of sessions waiting for capacity and the deadline indexes.
Everything outside of the lock enters through `Reading`s: the clock, the byte budgets,
what receivers did to their channels, and the iteration order of hash maps.
-/

namespace Netbaiot.Broker

open Lib Mqtt

/-! ## Deadlines -/

/-- One current deadline per key, with the keys of each deadline. -/
structure DeadlineIndex (K : Type) where
  byDeadline : Table Int64 (List K) := ∅
  byKey : Table K Int64 := ∅

namespace DeadlineIndex

variable {K : Type} [DecidableEq K]

def hasDue (index : DeadlineIndex K) (now : Int64) : Bool :=
  index.byDeadline.firstKey?.any (· ≤ now)

/-- Take a key out of its bucket. -/
def forget (index : DeadlineIndex K) (key : K) : DeadlineIndex K :=
  match index.byKey.lookup key with
  | none => index
  | some old =>
      { byKey := index.byKey.erase key
        byDeadline :=
          match index.byDeadline.lookup old with
          | none => index.byDeadline
          | some bucket =>
              index.byDeadline.put old
                (if (bucket.erase key).isEmpty then none else some (bucket.erase key)) }

def update (index : DeadlineIndex K) (key : K) (deadline : Option Int64) : DeadlineIndex K :=
  if index.byKey.lookup key = deadline then index
  else
    let index := index.forget key
    match deadline with
    | none => index
    | some deadline =>
        { byDeadline := index.byDeadline.insert deadline
            (((index.byDeadline.lookup deadline).getD []).insert key)
          byKey := index.byKey.insert key deadline }

/-- Take some key of the earliest bucket, if that bucket is due. -/
def popDue (index : DeadlineIndex K) (now : Int64) (order : ℕ) : Option (K × DeadlineIndex K) := do
  let deadline ← index.byDeadline.firstKey?
  if deadline > now then none
  else
    let bucket ← index.byDeadline.lookup deadline
    let key ← bucket[order % bucket.length]?
    some (key, index.update key none)

end DeadlineIndex

/-! ## The parts of the state -/

/-- The counters of one tenant. -/
structure TenantUsage where
  sessionCount : ℕ := 0
  sessionBytes : ℕ := 0
  subscriptionCount : ℕ := 0
  offlineCount : ℕ := 0
  offlineBytes : ℕ := 0
  qos1Inflight : ℕ := 0
  qos2Inflight : ℕ := 0
deriving DecidableEq

/-- The sessions and the counters derived from them. -/
structure Accounts where
  sessions : Table SessionKey StoredSession := ∅
  sessionUsage : Table SessionKey SessionUsage := ∅
  tenantUsage : Table TenantId TenantUsage := ∅
  deviceSubscriptionCount : Table DeviceKey ℕ := ∅
  subscriptionCount : ℕ := 0
  sessionBytes : ℕ := 0
  offlineCount : ℕ := 0
  offlineBytes : ℕ := 0

/-- A retained message with the tenant it is charged to. -/
structure RetainedMessage where
  tenantId : TenantId
  message : BrokerMessage
  origin : Option SessionKey
deriving DecidableEq

def RetainedMessage.bytes (r : RetainedMessage) : ℕ := retainedCharge r.message r.origin

/-- The retained messages by topic, the counters derived from them, and the capacity
reserved for promised updates.  Tenant counters are pairs of a count and a byte sum. -/
structure RetainedStore where
  entries : Table Text RetainedMessage := ∅
  tenantUsage : Table TenantId (ℕ × ℕ) := ∅
  bytes : ℕ := 0
  reservedCount : ℕ := 0
  reservedBytes : ℕ := 0
  reservedTenants : Table TenantId (ℕ × ℕ) := ∅

/-- A Will the broker has to publish. -/
structure PendingWill where
  owner : DeviceKey
  origin : Option SessionKey
  message : BrokerMessage
  dueAtMs : Option Int64
  cancelOnResume : Option (SessionKey × UInt64)
  messageExpiryInterval : Option UInt32
  retainedReservation : RetainedReservation
deriving DecidableEq

def PendingWill.bytes (w : PendingWill) : ℕ := willCharge w.message w.origin

/-- How long a Will waits: its delay, the session expiry, and the connection it belongs to. -/
structure WillDelay where
  delay : UInt32
  sessionExpiry : UInt32
  key : SessionKey
  incarnation : UInt64
  generation : UInt64

/-- The Will of a live connection, which the broker has reserved capacity for. -/
structure WillGuard where
  owner : DeviceKey
  origin : Option SessionKey
  message : BrokerMessage
  reservation : RetainedReservation
  delay : Option WillDelay := none
  messageExpiryInterval : Option UInt32 := none
  armed : Bool := false

/-- The Wills the broker answers for.  Ready ones queue in `pending`, delayed ones wait in
`future` by deadline and token; `guards` are those still held by live connections. -/
structure WillStore where
  pending : List PendingWill := []
  future : Table Int64 (Table UInt64 PendingWill) := ∅
  bySession : Table SessionKey (List (Int64 × UInt64)) := ∅
  nextToken : UInt64 := 0
  responsibilityCount : ℕ := 0
  responsibilityBytes : ℕ := 0
  responsibilityTenants : Table TenantId (ℕ × ℕ) := ∅
  guards : Table ℕ WillGuard := ∅

/-- The connected sessions that have something to hand over, by tenant and QoS and in the
order in which they began to wait. -/
structure PendingIndex where
  byTenant : Table (TenantId × ℕ) (Table UInt64 SessionKey) := ∅
  global : Table UInt64 SessionKey := ∅
  sessions : Table SessionKey (ℕ × UInt64) := ∅
  nextToken : UInt64 := 0

/-- What expires, by time. -/
structure Deadlines where
  sessions : DeadlineIndex SessionKey := {}
  messages : DeadlineIndex SessionKey := {}
  retained : DeadlineIndex Text := {}

/-- The connection of a session: its generation and its bounded frame channel. -/
structure ActiveSession where
  generation : UInt64
  capacity : ℕ
  free : ℕ
  closed : Bool

/-- What the connection has done with its end of the channel by now. -/
def ActiveSession.receive (a : ActiveSession) (drained : ℕ) (closed : Bool) : ActiveSession :=
  { a with free := min a.capacity (a.free + drained), closed := a.closed || closed }

/-- A publish on its way to a connection. -/
structure BrokerDelivery where
  message : BrokerMessage
  packetId : Option PacketId
  dup : Bool
  command : Bool
  progress : Option ProgressId
deriving DecidableEq

/-- What a connection is given to send. -/
inductive BrokerFrame where
  | publish (delivery : BrokerDelivery)
  | pubrel (packetId : PacketId) (dup : Bool)
deriving DecidableEq

/-- A frame given to a connection. -/
structure Handover where
  key : SessionKey
  generation : UInt64
  frame : BrokerFrame
deriving DecidableEq

/-- One look at the world outside of the lock: the clock, the bytes the outbound budgets
can still grant, what a receiver did, and a position in an unordered collection. -/
structure Reading where
  clock : Int64
  budget : ℕ := 0
  drained : ℕ := 0
  closed : Bool := false
  order : ℕ := 0

/-- A clock before the epoch reads zero. -/
def Reading.now (r : Reading) : Int64 := max 0 r.clock

/-- The state of the broker, with the readings it will take and the frames handed over so
far. -/
structure BrokerState where
  accounts : Accounts := {}
  retained : RetainedStore := {}
  wills : WillStore := {}
  pending : PendingIndex := {}
  deadlines : Deadlines := {}
  trie : SubscriptionTrie := .empty
  active : Table SessionKey ActiveSession := ∅
  generation : UInt64 := 0
  operationId : UInt64 := 0
  sessionIdleTtlMs : Int64
  /-- Tenants and QoS levels whose inflight count fell. -/
  capacityWakes : Table (TenantId ×ₗ ℕ) Unit := ∅
  /-- The counts published for the routing shortcut. -/
  publishedSubscriptions : ℕ := 0
  publishedUplinks : ℕ := 0
  readings : ℕ → Reading
  cursor : ℕ := 0
  handed : List Handover := []

/-- An operation under the broker lock. -/
abbrev BrokerM := Op BrokerState Error

/-! ## The world outside -/

def observe : BrokerM Reading := do
  let s ← get
  set { s with cursor := s.cursor + 1 }
  return s.readings s.cursor

def nowMs : BrokerM Int64 := do
  let reading ← observe
  return reading.now

/-- Reserve the bytes of a frame in the connection, tenant and process budgets. -/
def reserveFrame (bytes : ℕ) : BrokerM Bool := do
  let reading ← observe
  return bytes ≤ reading.budget

/-- Reserve the bytes of a frame if a condition holds, else do without. -/
def reserveIf (c : Bool) (bytes : ℕ) : BrokerM Bool :=
  if c then reserveFrame bytes else return false

/-- Reserve the bytes of a frame unless that is not needed. -/
def reserveUnless (c : Bool) (bytes : ℕ) : BrokerM Bool :=
  if c then return true else reserveFrame bytes

/-- The channel of a session, as its receiver left it by now. -/
def channel (key : SessionKey) : BrokerM (Option ActiveSession) := do
  let reading ← observe
  let s ← get
  let active := (s.active.lookup key).map fun a => a.receive reading.drained reading.closed
  set { s with active := s.active.put key active }
  return active

/-- Put a frame into the channel of a session unless it is closed or full. -/
def trySend (key : SessionKey) (frame : BrokerFrame) : BrokerM Bool := do
  match ← channel key with
  | none => return false
  | some active =>
      if active.closed || active.free = 0 then return false
      else
        modify fun s => { s with
          active := s.active.insert key { active with free := active.free - 1 }
          handed := s.handed ++ [⟨key, active.generation, frame⟩] }
        return true

/-- The elements of an unordered collection in the order in which it yields them. -/
def permute {α : Type} : ℕ → List α → List α
  | _, [] => []
  | order, a :: rest => (permute (order / (rest.length + 1)) rest).insertIdx
      (order % (rest.length + 1)) a

def unordered {α : Type} (l : List α) : BrokerM (List α) := do
  let reading ← observe
  return permute reading.order l

/-! ## Running these -/

section Exec

variable {β : Type} (s : BrokerState)

/-- The state after one more reading was taken. -/
def BrokerState.tick (s : BrokerState) : BrokerState := { s with cursor := s.cursor + 1 }

@[simp] theorem exec_reserveFrame_bind (bytes : ℕ) (f : Bool → BrokerM β) :
    Op.exec (reserveFrame bytes >>= f) s =
      Op.exec (f (bytes ≤ (s.readings s.cursor).budget)) s.tick := rfl

end Exec

end Netbaiot.Broker
