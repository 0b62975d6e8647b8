import Mathlib.Logic.Function.Basic
import Netbaiot.Command
import Netbaiot.Lib.Run
import Netbaiot.Lib.Sha256
import Netbaiot.Lib.Table
import Netbaiot.Limits

/-!
# Command deduplication

`CommandService::send` dispatches a command at most once per retention.  It reserves the
command's key in a table under a lock, dispatches without the lock, and records the receipt
under the lock again; sends that find the key in flight wait for its owner and look again.
Any number of sends interleave between these steps.  The monotonic clock is in the state
and never goes back; instants are nanoseconds up to the latest one the platform represents.
-/

namespace Netbaiot.Commands

open Lib

/-- Commands are deduplicated per tenant and command identity. -/
abbrev Key := TenantId × CommandId

/-- The digest of a command as its caller sent it. -/
abbrev Fingerprint := List UInt8

/-- What a service is made with: its limits, the latest instant of the clock, the canonical
text of commands and the digest of texts. -/
structure Settings (Payload : Type) where
  limits : Limits
  latest : ℕ
  canonical : DeviceCommand Payload → List UInt8
  sha256 : Sha256

variable {Payload : Type}

variable (settings : Settings Payload)

/-- How long a receipt is kept. -/
def Settings.retention : ℕ :=
  settings.limits.commandDedupTtlMs * 1000000

/-- Add the retention to an instant, unless the clock cannot represent the sum. -/
def Settings.deadline (instant : ℕ) : Option ℕ :=
  if instant + settings.retention ≤ settings.latest then some (instant + settings.retention)
  else none

/-! ## Dispatch -/

/-- What the router finds of a device's session. -/
structure Endpoint where
  commandReady : Bool
  permissions : Permissions

/-- What the router meets while it dispatches: the wall clock, the session of the device, the
codec of its profile and the session's queue. -/
structure Surroundings (Payload : Type) where
  sameLifecycle : Bool
  nowMs : Int64
  session : Except Error (Option Endpoint)
  codec : Except Error (DeviceCommand Payload → Option (List UInt8))
  enqueueTracked : DeviceCommand Payload → List UInt8 → Except Error Unit

/-- When a command expires, if that is after now and within the time commands live. -/
def expiry (limits : Limits) (nowMs : Int64) (expiresAt : Option Int64) : Except Error Int64 :=
  let maximum := saturatingAdd64 nowMs (Int64.ofNat limits.commandTtlMs)
  let expiresAt := expiresAt.getD maximum
  if expiresAt ≤ nowMs ∨ maximum < expiresAt then .error .invalid else .ok expiresAt

/-- Hand a command to the live session of its device. -/
def sendAdmitted (limits : Limits) (command : DeviceCommand Payload)
    (around : Surroundings Payload) : Except Error CommandDispatch := do
  check around.sameLifecycle .invalid
  let expiresAt ← expiry limits around.nowMs command.expiresAt
  let command := { command with expiresAt := some expiresAt }
  let some endpoint ← around.session | .error .unavailable
  check endpoint.commandReady .unavailable
  check endpoint.permissions.commands .forbidden
  let encode ← around.codec
  let some bytes := encode command | .error .codec
  check (bytes.length ≤ limits.maxCommandBytes) .invalid
  around.enqueueTracked command bytes
  return ⟨command.commandId, .queued⟩

/-! ## The table -/

/-- The receipt of a dispatched command. -/
structure AcceptedCommand where
  fingerprint : Fingerprint
  dispatch : CommandDispatch
  retainedUntil : ℕ
deriving DecidableEq

/-- A key is owned by a send under way or has a receipt. -/
inductive CommandEntry (ι : Type) where
  | inFlight (fingerprint : Fingerprint) (owner : ι)
  | accepted (command : AcceptedCommand)
deriving DecidableEq

/-- The table and the queue that says when its receipts expire. -/
structure CommandDedup (ι : Type) where
  entries : Table Key (CommandEntry ι)
  expirations : List (ℕ × Key)

variable {ι : Type}

/-- Remove the receipt an expiration is for. -/
def dropExpired (entries : Table Key (CommandEntry ι)) (expiry : ℕ) (key : Key) :
    Table Key (CommandEntry ι) :=
  match entries.lookup key with
  | some (.accepted accepted) =>
    if accepted.retainedUntil = expiry then entries.erase key else entries
  | _ => entries

/-- Take due expirations from the front of the queue. -/
def pruneExpired (now : ℕ) :
    Table Key (CommandEntry ι) → List (ℕ × Key) → CommandDedup ι
  | entries, [] => ⟨entries, []⟩
  | entries, (expiry, key) :: rest =>
    if expiry ≤ now then pruneExpired now (dropExpired entries expiry key) rest
    else ⟨entries, (expiry, key) :: rest⟩

/-- Remove the receipts whose time is over. -/
def CommandDedup.prune (state : CommandDedup ι) (now : ℕ) : CommandDedup ι :=
  pruneExpired now state.entries state.expirations

/-! ## Sends and their steps -/

/-- Where a send stands. -/
inductive Point (ι : Type) where
  -- about to look the key up
  | ready
  -- waiting for the send that owns the key
  | waiting (owner : ι)
  -- dropped by its caller while it waited
  | abandoned
  -- the key is reserved and the command is to be dispatched
  | reserved (expiresAt : Int64)
  -- the router has answered at this instant; the answer is to be recorded
  | dispatched (instant : ℕ) (result : Except Error CommandDispatch)
  -- returned with the receipt of its own dispatch, kept until the second instant
  | recorded (instant retainedUntil : ℕ) (dispatch : CommandDispatch)
  | returned (result : Except Error CommandDispatch)
deriving DecidableEq

/-- A send that has passed its first checks. -/
structure Call (Payload ι : Type) where
  command : DeviceCommand Payload
  fingerprint : Fingerprint
  fallbackDeadline : ℕ
  point : Point ι

/-- The key of a send. -/
def Call.key (call : Call Payload ι) : Key := (call.command.device.tenantId, call.command.commandId)

/-- The clock, the table and all sends. -/
structure Service (Payload ι : Type) where
  now : ℕ
  dedup : CommandDedup ι
  calls : ι → Option (Call Payload ι)

/-- The first checks of a send: admission, identity, size and the clock. -/
def begin (admitted : Bool) (now : ℕ)
    (command : DeviceCommand Payload) : Except Error (Fingerprint × ℕ) := do
  check admitted .draining
  check (command.commandId.uuid ≠ 0) .invalid
  let canonical := settings.canonical command
  check (canonical.length ≤ settings.limits.maxCommandBytes) .invalid
  let some fallbackDeadline := settings.deadline now | .error .internal
  return (settings.sha256.digest canonical, fallbackDeadline)

/-- Look a key up under the lock: the point the send goes on to and the table it leaves.  The
delivery state is what the progress of an accepted command says at that moment. -/
def lookUp (call : ι) (key : Key) (fingerprint : Fingerprint)
    (expiresAt : Option Int64) (nowMs : Int64) (progress : DeliveryState)
    (entries : Table Key (CommandEntry ι)) : Point ι × Table Key (CommandEntry ι) :=
  match entries.lookup key with
  | some (.accepted accepted) =>
    if accepted.fingerprint ≠ fingerprint then (.returned (.error .conflict), entries)
    else (.returned (.ok { accepted.dispatch with state := progress }), entries)
  | some (.inFlight existing owner) =>
    if existing ≠ fingerprint then (.returned (.error .conflict), entries)
    else (.waiting owner, entries)
  | none =>
    if settings.limits.commandDedupMaxEntries ≤ entries.size then
      (.returned (.error .overloaded), entries)
    else
      match expiry settings.limits nowMs expiresAt with
      | .error e => (.returned (.error e), entries)
      | .ok expiresAt => (.reserved expiresAt, entries.insert key (.inFlight fingerprint call))

/-- What happens next: time passes, or a send takes a step. -/
inductive Action (Payload ι : Type) where
  | tick (elapsed : ℕ)
  | start (call : ι) (command : DeviceCommand Payload) (admitted : Bool)
  | lookUp (call : ι) (nowMs : Int64) (progress : DeliveryState)
  | wake (call : ι)
  | abandon (call : ι)
  | dispatch (call : ι) (around : Surroundings Payload)
  | record (call : ι)

/-- Whether a send has returned, which wakes those that wait for it. -/
def Point.finished : Point ι → Bool
  | .recorded _ _ _ | .returned _ => true
  | _ => false

namespace Service

variable [DecidableEq ι]

/-- A service at its start. -/
def new : Service Payload ι := ⟨0, ⟨∅, []⟩, fun _ => none⟩

/-- A send goes on to another point. -/
def move (s : Service Payload ι) (i : ι) (call : Call Payload ι) (point : Point ι) :
    Service Payload ι :=
  { s with calls := Function.update s.calls i (some { call with point := point }) }

/-- Write the receipt of a dispatch, or give the key up after a failed one. -/
def record (s : Service Payload ι) (i : ι) (call : Call Payload ι) (instant : ℕ)
    (result : Except Error CommandDispatch) : Service Payload ι :=
  match result with
  | .ok dispatch =>
    let retainedUntil := (settings.deadline s.now).getD call.fallbackDeadline
    let accepted : AcceptedCommand := ⟨call.fingerprint, dispatch, retainedUntil⟩
    { s with
      dedup := ⟨s.dedup.entries.insert call.key (.accepted accepted),
        s.dedup.expirations ++ [(retainedUntil, call.key)]⟩ }.move i call
      (.recorded instant retainedUntil dispatch)
  | .error e =>
    { s with dedup := { s.dedup with entries := s.dedup.entries.erase call.key } }.move i call
      (.returned (.error e))

/-- The lock section in which a send looks its key up. -/
def lookUp (settings : Settings Payload) (s : Service Payload ι) (i : ι)
    (call : Call Payload ι) (nowMs : Int64) (progress : DeliveryState) : Service Payload ι :=
  let dedup := s.dedup.prune s.now
  let (point, entries) := Commands.lookUp settings i call.key call.fingerprint
    call.command.expiresAt nowMs progress dedup.entries
  { s with dedup := { dedup with entries := entries } }.move i call point

/-- One step, if it can be taken. -/
def perform (s : Service Payload ι) :
    Action Payload ι → Option (Service Payload ι)
  | .tick elapsed =>
    if s.now + elapsed ≤ settings.latest then some { s with now := s.now + elapsed } else none
  | .start i command admitted =>
    match s.calls i, begin settings admitted s.now command with
    | none, .ok (fingerprint, fallbackDeadline) =>
      some { s with
        calls := Function.update s.calls i
          (some ⟨command, fingerprint, fallbackDeadline, .ready⟩) }
    -- the send has returned an error and left no trace
    | none, .error _ => some s
    | some _, _ => none
  | .lookUp i nowMs progress =>
    match s.calls i with
    | some call =>
      match call.point with
      | .ready => some (s.lookUp settings i call nowMs progress)
      | _ => none
    | none => none
  | .wake i =>
    match s.calls i with
    | some call =>
      match call.point with
      | .waiting owner =>
        if (s.calls owner).any fun other => other.point.finished then some (s.move i call .ready)
        else none
      | _ => none
    | none => none
  | .abandon i =>
    match s.calls i with
    | some call =>
      match call.point with
      | .waiting _ => some (s.move i call .abandoned)
      | _ => none
    | none => none
  | .dispatch i around =>
    match s.calls i with
    | some call =>
      match call.point with
      | .reserved expiresAt =>
        let prepared := { call.command with expiresAt := some expiresAt }
        some (s.move i call
          (.dispatched s.now (sendAdmitted settings.limits prepared around)))
      | _ => none
    | none => none
  | .record i =>
    match s.calls i with
    | some call =>
      match call.point with
      | .dispatched instant result => some (s.record settings i call instant result)
      | _ => none
    | none => none

end Service

/-- The sends of a set interleave their steps. -/
def system (ι : Type) [DecidableEq ι] :
    System (Service Payload ι) (Action Payload ι) where
  start s := s = .new
  step s a s' := s.perform settings a = some s'

end Netbaiot.Commands
