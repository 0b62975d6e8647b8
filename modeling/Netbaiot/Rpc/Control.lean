import Netbaiot.Lib.Run
import Netbaiot.Rpc.Registry

/-!
# The control worker of a provider

A provider is synchronized by `auth.sync` and kept up to date by `auth.invalidate`.  A worker
handles these requests one after the other; the session reader sends its replies and, once
the reply to a sync is written, a PING.  The PONG makes the provider serve the revision that
the worker has left in `confirmation`, a value that both tasks share without a common lock.
Every access to shared state is a step of its own.  `Session` also numbers the successful
syncs, and remembers which replies were written before a PING was sent and what made the
provider serve; the program does not know these.  It is a single provider stream, from its
OPEN to its end; the connection may open another one after it, with a worker of its own.
-/

namespace Netbaiot.Rpc

open Lib

/-- What the provider asks for; a body that cannot be decoded is malformed. -/
inductive ControlRequest where
  | authSync (reset : Bool) (incarnation revision : ℕ)
  | authInvalidate (incarnation revision : ℕ) (permitted : Bool)
  | malformed (sync : Bool)
  | unknown

/-- What the worker does next. -/
inductive WorkerStage where
  | idle
  | handling (request : ControlRequest)
  | syncing (incarnation revision : ℕ)
  | revoking (incarnation revision : ℕ)
  | storing (incarnation revision : ℕ)
  | clearing
  | advancing (incarnation revision : ℕ)
  | advanced (incarnation revision : ℕ)
  | gap
  | gapSyncing
  | gapRevoking
  | replying (sync : Option ℕ)
  | ended

/-- A PING that the reader sent after a reply to a sync was written, with all syncs whose
replies were written by then. -/
structure SyncPing where
  nonce : ℕ
  after : List ℕ

/-- What the reader took from the confirmation: the revision and the sync that left it, and
what the answered PING was sent after. -/
structure Confirmed where
  revision : ℕ
  sync : ℕ
  after : List ℕ

/-- One provider stream: the registry, the worker and the reader. -/
structure Session where
  registry : Registry
  epoch : UInt64
  revision : Option (ℕ × ℕ)
  stage : WorkerStage
  confirmation : ℕ
  replies : List (Option ℕ)
  responses : List ℕ
  syncWritten : Option ℕ
  syncPing : Option SyncPing
  held : Option Confirmed
  running : Bool
  syncs : ℕ
  base : ℕ
  confirmedBy : ℕ
  written : List ℕ
  served : Option Confirmed

/-- What can happen: the worker takes a request or does its next step, whose calls into the
gateway may fail; the reader sends a reply, hears of a written response, receives a PONG, and
makes the provider serve; the writer writes a response; the provider stream is closed. -/
inductive SessionAction where
  | request (request : ControlRequest) (admission : Bool)
  | work (ok : Bool) (nowMs : Int64) (instant : ℕ)
  | takeReply (known : Bool)
  | write (sync : ℕ) (ok : Bool)
  | ping (nonce : ℕ)
  | pong (nonce : ℕ)
  | serve (admission : Bool) (nowMs : Int64) (instant : ℕ)
  | close

/-- Whether calls can be made to the registered provider. -/
def Registry.isServing (r : Registry) (nowMs : Int64) : Bool :=
  r.provider.any fun p => p.available nowMs

/-- The highest `u64`, which is never a revision. -/
def maxRevision : ℕ := 2 ^ 64 - 1

variable (s : Session)

namespace Session

/-- A provider was registered with this epoch. -/
def new (registry : Registry) (epoch : UInt64) : Session :=
  ⟨registry, epoch, none, .idle, 0, [], [], none, none, none, true, 0, 0, 0, [], none⟩

def setStage (stage : WorkerStage) : Session := { s with stage := stage }

/-- Run an operation of the registry for the lease. -/
def onRegistry (op : RegistryM Unit) : Except Error Unit × Session :=
  let (result, registry) := Op.exec op s.registry
  (result, { s with registry := registry })

/-- The worker decides what a request needs. -/
def handle (request : ControlRequest) (nowMs : Int64) : WorkerStage :=
  match request with
  | .authSync reset incarnation revision =>
      if reset ∧ 0 < revision ∧ revision < maxRevision then .syncing incarnation revision
      else .clearing
  | .authInvalidate incarnation revision permitted =>
      if revision = 0 ∨ revision = maxRevision then .replying none
      else if !permitted then .replying none
      else if s.revision = some (incarnation, revision) then .replying none
      else if s.revision.any fun r => r.1 = incarnation && revision < r.2 then .replying none
      else if (s.revision.any fun r => r.1 = incarnation && r.2 + 1 = revision) ∧
          s.registry.isServing nowMs then .advancing incarnation revision
      else .gap
  | .malformed sync => if sync then .clearing else .replying none
  | .unknown => .replying none

/-- The next step of the worker. -/
def work (ok : Bool) (nowMs : Int64) (instant : ℕ) : Session :=
  match s.stage with
  | .idle | .ended => s
  | .handling request => s.setStage (s.handle request nowMs)
  | .syncing incarnation revision =>
      match s.onRegistry (markSyncing s.epoch instant) with
      | (.ok (), s) => s.setStage (.revoking incarnation revision)
      | (.error _, s) => s.setStage .ended
  | .revoking incarnation revision =>
      if ok then s.setStage (.storing incarnation revision) else s.setStage .clearing
  | .storing incarnation revision =>
      let sync := s.syncs + 1
      { s with
        revision := some (incarnation, revision)
        confirmation := revision
        syncs := sync
        base := sync
        confirmedBy := sync
        stage := .replying (some sync) }
  | .clearing => { s with confirmation := 0, stage := .replying none }
  | .advancing incarnation revision =>
      if ok then
        { s with revision := some (incarnation, revision), stage := .advanced incarnation revision }
      else s.setStage (.replying none)
  | .advanced _ revision =>
      match s.onRegistry (advanceRevision s.epoch revision) with
      | (.ok (), s) => s.setStage (.replying none)
      | (.error _, s) => s.setStage .ended
  | .gap => { s with confirmation := 0, stage := .gapSyncing }
  | .gapSyncing =>
      match s.onRegistry (markSyncing s.epoch instant) with
      | (.ok (), s) => { s with revision := none, stage := .gapRevoking }
      | (.error _, s) => s.setStage .ended
  | .gapRevoking => if ok then s.setStage (.replying none) else s.setStage .ended
  | .replying sync =>
      if ok then { s with replies := s.replies ++ [sync], stage := .idle } else s.setStage .ended

/-- The reader sends a reply, if the stream of the request is still there, and waits for the
reply to a sync to be written. -/
def takeReply (known : Bool) : Session :=
  match s.replies with
  | [] => s
  | reply :: rest =>
      let s := { s with replies := rest }
      match known, reply with
      | true, some sync => { s with responses := sync :: s.responses, syncWritten := some sync }
      | _, _ => s

/-- The writer has written the response to a sync, or failed to. -/
def write (sync : ℕ) (ok : Bool) : Session :=
  if sync ∈ s.responses then
    { s with
      responses := s.responses.erase sync
      written := if ok then sync :: s.written else s.written }
  else s

/-- The reader hears that the response it waits for was written, and sends a PING. -/
def ping (nonce : ℕ) : Session :=
  match s.syncWritten with
  | none => s
  | some sync =>
      if sync ∈ s.responses then s
      else
        let s := { s with syncWritten := none }
        if sync ∈ s.written then { s with syncPing := some ⟨nonce, s.written⟩ } else s

/-- A PONG arrives: if it answers the PING, the reader takes the confirmation. -/
def pong (nonce : ℕ) : Session :=
  match s.syncPing with
  | none => s
  | some ping =>
      if ping.nonce = nonce then
        { s with
          syncPing := none
          held := some ⟨s.confirmation, s.confirmedBy, ping.after⟩
          confirmation := 0 }
      else s

/-- The reader makes the provider serve the revision it took. -/
def serve (admission : Bool) (nowMs : Int64) (instant : ℕ) : Session :=
  match s.held with
  | none => s
  | some confirmed =>
      let s := { s with held := none }
      if confirmed.revision ≠ 0 ∧ confirmed.revision ≠ maxRevision ∧ admission then
        match s.onRegistry (markServing s.epoch confirmed.revision nowMs instant) with
        | (.ok (), s) => { s with served := some confirmed }
        | (.error _, s) => { s with running := false }
      else s

def step (a : SessionAction) : Session :=
  if !s.running then s
  else
    match a with
    | .request request admission =>
        match s.stage with
        | .idle => s.setStage (if admission then .handling request else .replying none)
        | _ => s
    | .work ok nowMs instant => s.work ok nowMs instant
    -- the reader does nothing else while it holds a confirmation
    | .takeReply known => if s.held.isSome then s else s.takeReply known
    | .write sync ok => s.write sync ok
    | .ping nonce => if s.held.isSome then s else s.ping nonce
    | .pong nonce => if s.held.isSome then s else s.pong nonce
    | .serve admission nowMs instant => s.serve admission nowMs instant
    | .close => { s with running := false }

/-- A provider was just registered. -/
def Started : Prop :=
  ∃ registry scope expiresAtMs instant epoch registered,
    Op.exec (registerWithExpiry scope expiresAtMs instant) registry = (.ok epoch, registered) ∧
      s = .new registered epoch

end Session

/-- Reader, worker and writer of a provider stream in any order. -/
def controlling : System Session SessionAction where
  start := Session.Started
  step s a s' := s' = s.step a

end Netbaiot.Rpc
