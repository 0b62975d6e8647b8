import Netbaiot.EventBus.State
import Mathlib.Data.List.Sort

/-!
# Operations of the event bus

`publish` and `restore` admit events, `takeReady` hands one delivery to a worker and
`completeDetailed` settles it.  Every operation runs under the bus mutex, so a run of
the bus is a sequence of these operations with clock readings chosen by the caller.
-/

namespace Netbaiot.EventBus

open Lib Op

/-- The size of a JSON text, if it stays within the maximum. -/
def boundedJsonBytes (json : List UInt8) (maximum : ℕ) : Except Error ℕ :=
  if json.length ≤ maximum then .ok json.length else .error .overloaded

/-! ## Routes -/

/-- Sinks collected per tenant while a route table is compiled. -/
structure RouteSets where
  global : Finset SinkId
  tenants : Table TenantId (Finset SinkId)

variable (limits : Limits)

/-- Whether a fan-out of this size is too large. -/
def fanoutExceeded (size : ℕ) : Bool :=
  size > limits.maxFanoutPerEvent || size > limits.maxSinksPerTenant

/-- Check one route definition and add its sinks to the set of its tenant. -/
def addRoute (sinks : Table SinkId SinkState) (limits : Limits) (sets : RouteSets)
    (route : RouteDefinition) : Except Error RouteSets :=
  let unique := route.sinks.toFinset
  if fanoutExceeded limits route.sinks.length then .error .configuration
  else if unique = ∅ ∨ unique.card ≠ route.sinks.length ∨ fanoutExceeded limits unique.card ∨
      (∃ id ∈ unique, id ∉ sinks) then .error .configuration
  else
    match route.tenant with
    | some tenant =>
      let target := (sets.tenants.lookup tenant).getD ∅ ∪ unique
      if fanoutExceeded limits target.card then .error .configuration
      else .ok { sets with tenants := sets.tenants.insert tenant target }
    | none =>
      let target := sets.global ∪ unique
      if fanoutExceeded limits target.card then .error .configuration
      else .ok { sets with global := target }

/-- Compile route definitions into the effective sorted fan-out of every tenant. -/
def compileRoutes (routes : List RouteDefinition) (sinks : Table SinkId SinkState)
    (limits : Limits) : Except Error CompiledRoutes := do
  check (¬ (routes = [] ∨ routes.length > limits.maxRoutingFilters)) .configuration
  let sets ← routes.foldlM (addRoute sinks limits) ⟨∅, ∅⟩
  let effective := sets.tenants.mapValues fun _ own => own ∪ sets.global
  check (∀ own ∈ effective.values, ¬ fanoutExceeded limits own.card) .configuration
  return { global := sets.global.sort
           tenants := effective.mapValues fun _ own => own.sort }

/-! ## Construction -/

/-- A sink with nothing queued. -/
def SinkState.idle (definition : SinkDefinition) : SinkState where
  definition := definition
  ready := []
  delayed := ∅
  usedCount := 0
  usedBytes := 0
  inflight := 0
  consecutiveFailures := 0
  pausedUntil := none
  lastFailure := none
  retries := 0
  failures := 0
  drops := 0
  retryAfterUsed := 0
  pendingAges := ∅

/-- Check one sink definition and register it. -/
def addSink (sinks : Table SinkId SinkState) (definition : SinkDefinition) :
    Except Error (Table SinkId SinkState) :=
  if definition.maxCount = 0 ∨ definition.maxBytes = 0 ∨ definition.concurrency = 0 ∨
      definition.concurrency > definition.maxCount ∨ definition.maxAttempts = 0 ∨
      definition.id ∈ sinks then .error .configuration
  else .ok (sinks.insert definition.id (.idle definition))

/-- Build a bus that has accepted nothing. -/
def newPaused (definitions : List SinkDefinition)
    (routes : List RouteDefinition) (routingRevision : UInt64) : Except Error State := do
  check (¬ (definitions = [] ∨ definitions.length > limits.maxSinks)) .configuration
  let sinks ← definitions.foldlM addSink ∅
  let routes ← compileRoutes routes sinks limits
  return { sinks := sinks
           routes := routes
           routingRevision := routingRevision
           active := ∅
           activeBytes := 0
           pendingRequired := 0
           accepting := true
           nextOperation := 0
           tenants := ∅ }

/-- Replace the route table by one of a newer revision. -/
def replaceRoutes (revision : UInt64) (routes : List RouteDefinition) : BusM Unit := do
  let state ← get
  ensure (¬ revision ≤ state.routingRevision) .conflict
  let routes ← fromExcept (compileRoutes routes state.sinks limits)
  modify fun s => { s with routes := routes, routingRevision := revision }

/-- Refuse every later publish. -/
def closeAdmission : BusM Unit := modify fun s => { s with accepting := false }

/-! ## Admission -/

/-- Count the required targets of an event, refusing it when one of them has no room. -/
def checkRequired (sinks : Table SinkId SinkState) (bytes : ℕ) : List SinkId → Except Error ℕ
  | [] => .ok 0
  | id :: rest =>
    match sinks.lookup id with
    | none => .error .configuration
    | some sink =>
      if sink.definition.mode = .confirmedRequired then
        if sink.available bytes then (· + 1) <$> checkRequired sinks bytes rest
        else .error .overloaded
      else checkRequired sinks bytes rest

/-- The sinks that took an event, and those of them that must confirm it. -/
structure Fanout where
  remaining : Finset SinkId
  required : Finset SinkId

/-- Offer a record to every target in turn; a best-effort target without room drops it. -/
def fanOut (record : DeliveryRecord) : List SinkId → Fanout → BusM Fanout
  | [], taken => pure taken
  | id :: rest, taken => do
    let sink ← someOr ((← get).sinks.lookup id) .configuration
    if sink.available record.bytes then
      modify fun s => s.setSink id (sink.onQueue (·.enqueue record))
      fanOut record rest
        { remaining := insert id taken.remaining
          required := if sink.definition.mode = .confirmedRequired then insert id taken.required
            else taken.required }
    else
      modify fun s => s.setSink id sink.noteDrop
      fanOut record rest taken

/-- Accept an event for all its required targets and for the best-effort ones with room. -/
def publish (now : Int64) (instant : ℕ) (event : DeviceEvent) : BusM EventAccepted := do
  let bytes ← fromExcept (boundedJsonBytes event.json limits.globalEventMaxBytes)
  let state ← get
  ensure state.accepting .draining
  ensure (event.eventId ∉ state.active) .conflict
  let targets := state.routes.forTenant event.device.tenantId
  ensure (targets ≠ []) .unavailable
  let activeBytes := state.activeBytes + bytes
  ensure (¬ (state.active.size ≥ limits.globalEventMaxCount ∨
    activeBytes > limits.globalEventMaxBytes)) .overloaded
  let current := (state.tenants.lookup event.device.tenantId).getD {}
  let tenant : TenantBacklog := { count := current.count + 1, bytes := current.bytes + bytes }
  ensure (¬ (tenant.count > limits.eventQueueMaxCountPerTenant ∨
    tenant.bytes > limits.eventQueueMaxBytesPerTenant)) .overloaded
  -- Required capacity is checked for every sink before the first mutation.
  let requiredCount ← fromExcept (checkRequired state.sinks bytes targets)
  let record : DeliveryRecord :=
    { event := event, bytes := bytes, acceptedAt := now, attempt := 0,
      nextAttempt := instant, operation := 0 }
  let taken ← fanOut record targets ⟨∅, ∅⟩
  ensure (taken.remaining ≠ ∅) .overloaded
  modify fun s =>
    { s with
      activeBytes := activeBytes
      pendingRequired := state.pendingRequired + requiredCount
      tenants := s.tenants.insert event.device.tenantId tenant
      active := s.active.insert event.eventId
        { event := event, bytes := bytes, remaining := taken.remaining,
          required := taken.required, attempts := ∅, acceptedAt := now,
          routingRevision := state.routingRevision, operations := ∅ } }
  return { eventId := event.eventId
           acceptedAt := now
           requiredDeliveries := taken.required.card
           bestEffortDeliveries := taken.remaining.card - taken.required.card }

/-! ## Restart -/

/-- Sums and projections collected while a restart snapshot is checked. -/
structure Preflight where
  ids : Finset EventId
  totalBytes : ℕ
  totalRequired : ℕ
  projections : Table SinkId (ℕ × ℕ)
  tenants : Table TenantId TenantBacklog

/-- Project one event onto each of its pending sinks. -/
def projectSinks (state : State) (bytes : ℕ) :
    List SinkId → Finset SinkId → Table SinkId (ℕ × ℕ) → Except Error (Table SinkId (ℕ × ℕ))
  | [], _, projections => .ok projections
  | id :: rest, pending, projections =>
    if id ∈ pending then .error .invalid
    else
      match state.sinks.lookup id with
      | none => .error .configuration
      | some sink =>
        if sink.definition.mode ≠ .confirmedRequired then .error .invalid
        else
          let before := (projections.lookup id).getD (sink.usedCount, sink.usedBytes)
          let after := (before.1 + 1, before.2 + bytes)
          if after.1 > sink.definition.maxCount ∨ after.2 > sink.definition.maxBytes then
            .error .overloaded
          else projectSinks state bytes rest (insert id pending) (projections.insert id after)

/-- Check one record of a restart snapshot against the state and the records before it. -/
def checkRecord (state : State) (acc : Preflight) (record : SpoolRecord) :
    Except Error Preflight := do
  let bytes := record.event.json.length
  check (¬ (record.pendingSinks = [] ∨ record.acceptedAt < 0)) .invalid
  check (¬ (record.pendingSinks.length > limits.maxFanoutPerEvent ∨
    record.attempts.size > limits.maxSinks)) .overloaded
  check (¬ (record.event.eventId ∈ acc.ids ∨ record.event.eventId ∈ state.active)) .conflict
  let totalBytes := acc.totalBytes + bytes
  check (¬ totalBytes > limits.globalEventMaxBytes) .overloaded
  let tenantId := record.event.device.tenantId
  let before := (acc.tenants.lookup tenantId).getD ((state.tenants.lookup tenantId).getD {})
  let tenant : TenantBacklog := { count := before.count + 1, bytes := before.bytes + bytes }
  check (¬ (tenant.count > limits.eventQueueMaxCountPerTenant ∨
    tenant.bytes > limits.eventQueueMaxBytesPerTenant)) .overloaded
  let projections ← projectSinks state bytes record.pendingSinks ∅ acc.projections
  return { ids := insert record.event.eventId acc.ids
           totalBytes := totalBytes
           totalRequired := acc.totalRequired + record.pendingSinks.length
           projections := projections
           tenants := acc.tenants.insert tenantId tenant }

/-- The delivery record a restored event puts on one of its sinks. -/
def SpoolRecord.delivery (record : SpoolRecord) (instant : ℕ) (id : SinkId) : DeliveryRecord where
  event := record.event
  bytes := record.event.json.length
  acceptedAt := record.acceptedAt
  attempt := (record.attempts.lookup id).getD 0
  nextAttempt := instant
  operation := 0

/-- Queue a restored event on its pending sinks. -/
def restoreSinks (instant : ℕ) (record : SpoolRecord) (sinks : Table SinkId SinkState)
    (id : SinkId) : Table SinkId SinkState :=
  match sinks.lookup id with
  | some sink => sinks.insert id (sink.onQueue (·.enqueue (record.delivery instant id)))
  | none => sinks

/-- Store one checked record of a restart snapshot. -/
def restoreRecord (instant : ℕ) (state : State) (record : SpoolRecord) : State :=
  let pending := record.pendingSinks.toFinset
  { state with
    sinks := pending.sort.foldl (restoreSinks instant record) state.sinks
    active := state.active.insert record.event.eventId
      { event := record.event, bytes := record.event.json.length, remaining := pending,
        required := pending, attempts := record.attempts, acceptedAt := record.acceptedAt,
        routingRevision := record.routingRevision, operations := ∅ } }

/-- Store the checked records of a restart snapshot with the counters projected for them. -/
def commitRestore (instant : ℕ) (records : List SpoolRecord) (checked : Preflight) (s : State) :
    State :=
  let s := records.foldl (restoreRecord instant) s
  { s with
    activeBytes := checked.totalBytes
    pendingRequired := checked.totalRequired
    tenants := checked.tenants ∪ s.tenants }

/-- Take over the records of a restart snapshot, all of them or none. -/
def restore (instant : ℕ) (records : List SpoolRecord) : BusM ℕ := do
  ensure (¬ records.length > limits.globalEventMaxCount) .overloaded
  ensure (∀ record ∈ records, record.event.json.length ≤ limits.globalEventMaxBytes) .overloaded
  let state ← get
  ensure (¬ state.active.size + records.length > limits.globalEventMaxCount) .overloaded
  let checked ← fromExcept (records.foldlM (checkRecord limits state)
    { ids := ∅, totalBytes := state.activeBytes, totalRequired := state.pendingRequired,
      projections := ∅, tenants := ∅ })
  modify (commitRestore instant records checked)
  return records.length

/-- The required responsibilities of a bus, ordered by event identity. -/
def spoolSnapshot (state : State) : List SpoolRecord :=
  let records := (state.active.values.filter fun active => active.required ≠ ∅).map fun active =>
    { event := active.event, pendingSinks := active.required.sort,
      routingRevision := active.routingRevision, acceptedAt := active.acceptedAt,
      attempts := active.attempts }
  records.insertionSort fun a b => a.event.eventId ≤ b.event.eventId

/-! ## Delivery -/

/-- Move due retries to the ready queue, in deadline order and within the budget. -/
def promoteDue (now : ℕ) : ℕ → ℕ → SinkQueue → SinkQueue
  | 0, _, sink => sink
  | budget + 1, remaining, sink =>
    match sink.delayed.firstKey? with
    | none => sink
    | some deadline =>
      if deadline > now then sink
      else
        let records := (sink.delayed.lookup deadline).getD []
        let promoted := min records.length remaining
        let sink :=
          if promoted = records.length then
            { sink with ready := sink.ready ++ records, delayed := sink.delayed.erase deadline }
          else
            { sink with
              ready := sink.ready ++ records.take promoted
              delayed := sink.delayed.insert deadline (records.drop promoted) }
        if remaining - promoted = 0 then sink
        else promoteDue now budget (remaining - promoted) sink

/-- Whether a paused sink must not deliver yet: one probe at a time after the cooldown. -/
def SinkState.held (sink : SinkState) (now : ℕ) : Bool :=
  sink.pausedUntil.any fun deadline => deadline > now || sink.inflight != 0

/-- The number of due retries one call may promote. -/
def SinkQueue.promotionBudget (sink : SinkQueue) : ℕ :=
  max (sink.definition.concurrency - sink.inflight - sink.ready.length) 1

/-- Hand the next ready delivery of a sink to its worker. -/
def takeReady (now : ℕ) (id : SinkId) : BusM (Option DeliveryRecord) := do
  let state ← get
  let operation ← someOr (checkedAdd 64 state.nextOperation 1) .internal
  let sink ← someOr (state.sinks.lookup id) .internal
  if sink.held now then return none
  else
    let promoted := promoteDue now sink.promotionBudget sink.promotionBudget sink.toSinkQueue
    match promoted.ready with
    | [] =>
      modify fun s => s.setSink id (sink.onQueue fun _ => promoted)
      return none
    | head :: rest =>
      let record := { head with operation := operation }
      modify fun s =>
        { s.setSink id (sink.onQueue fun _ =>
            { promoted with ready := rest, inflight := promoted.inflight + 1 }) with
          nextOperation := operation }
      modify fun s => s.updateActive record.event.eventId fun active =>
        { active with operations := active.operations.insert id operation }
      return some record

/-- How long a worker may sleep before its sink can deliver; `none` means until notified. -/
def nextReadyDelay (state : State) (now : ℕ) (id : SinkId) : Except Error (Option ℕ) :=
  match state.sinks.lookup id with
  | none => .error .internal
  | some sink =>
    if sink.usedCount = sink.inflight then .ok none
    else if sink.pausedUntil.any fun deadline => deadline ≤ now && sink.inflight != 0 then .ok none
    else
      let pause := (sink.pausedUntil.map fun deadline => deadline - now).getD 0
      if sink.ready ≠ [] then .ok (some pause)
      else .ok (sink.delayed.firstKey?.map fun deadline => max (deadline - now) pause)

/-- Clock readings of one completion, in the order in which they are taken. -/
structure CompletionClock where
  nowMs : Int64
  pauseInstant : ℕ
  retryInstant : ℕ

/-- The nanoseconds of a number of milliseconds. -/
def fromMillis (ms : ℕ) : ℕ := ms * 1000000

/-- The signed millisecond value of a duration, saturated. -/
def asMillis (duration : ℕ) : ℤ := min (duration / 1000000 : ℕ) (2 ^ 63 - 1)

/-- Whether a failed delivery is retried under its own schedule. -/
def shouldRetry (definition : SinkDefinition) (record : DeliveryRecord) (age : ℤ)
    (failure : SinkFailure) : Bool :=
  failure.error = .retryable && record.attempt.toNat < definition.maxAttempts &&
    age < asMillis definition.maxAge

/-- The exponential delay of an attempt, spread by the event identity. -/
def retryDelay (record : DeliveryRecord) : ℕ :=
  let cap := min (saturatingMul 64 limits.retryBaseMs (2 ^ min record.attempt.toNat 30))
    limits.retryMaxMs
  let seed := (record.event.eventId.uuid.toNat % 2 ^ 64) ^^^ record.attempt.toNat
  fromMillis (1 + seed % max cap 1)

/-- Update the health of a sink after a failed delivery. -/
def SinkState.noteFailure (sink : SinkState) (failure : SinkFailure) (required : Bool)
    (pauseUntil : ℕ) : SinkState :=
  let consecutive := saturatingAdd 32 sink.consecutiveFailures 1
  { sink with
    failures := saturatingAdd 64 sink.failures 1
    consecutiveFailures := consecutive
    lastFailure := some failure.reason
    retryAfterUsed := if failure.retryAfter.isSome then saturatingAdd 64 sink.retryAfterUsed 1
      else sink.retryAfterUsed
    pausedUntil := if required && (failure.error = .permanent || consecutive ≥ 3)
      then some pauseUntil else sink.pausedUntil }

/-- Update the health of a sink after a confirmed delivery. -/
def SinkState.noteSuccess (sink : SinkState) : SinkState :=
  { sink with consecutiveFailures := 0, pausedUntil := none, lastFailure := none }

/-- Change the state of one sink, which must exist. -/
def updateSink (id : SinkId) (f : SinkState → SinkState) : BusM Unit := do
  let sink ← someOr ((← get).sinks.lookup id) .internal
  modify fun s => s.setSink id (f sink)

/-- The tenant backlogs without one event of this size. -/
def releaseTenant (tenants : Table TenantId TenantBacklog) (tenantId : TenantId) (bytes : ℕ) :
    Table TenantId TenantBacklog :=
  match tenants.lookup tenantId with
  | none => tenants
  | some tenant =>
    if tenant.count - 1 = 0 then tenants.erase tenantId
    else tenants.insert tenantId { count := tenant.count - 1, bytes := tenant.bytes - bytes }

/-- Forget a stored event that is owed to nobody and release its tenant backlog. -/
def removeActive (eventId : EventId) (s : State) : State :=
  match s.active.lookup eventId with
  | none => s
  | some active =>
    { s with
      active := s.active.erase eventId
      activeBytes := s.activeBytes - active.bytes
      tenants := releaseTenant s.tenants active.event.device.tenantId active.bytes }

/-- Settle a responsibility of a stored event, and the event with its last one. -/
def settle (id : SinkId) (eventId : EventId) (s : State) : State :=
  match s.active.lookup eventId with
  | none => s
  | some active =>
    let settled := { active with
      remaining := active.remaining.erase id
      required := active.required.erase id }
    let s := { s with
      active := s.active.insert eventId settled
      pendingRequired := if id ∈ active.required then s.pendingRequired - 1
        else s.pendingRequired }
    if settled.remaining = ∅ then removeActive eventId s else s

/-- The record with one more attempt counted. -/
def DeliveryRecord.attempted (record : DeliveryRecord) : DeliveryRecord :=
  { record with attempt := UInt32.ofNat (saturatingAdd 32 record.attempt.toNat 1) }

/-- Note the end of an attempt with a stored event.  A last confirmation needs no history. -/
def ActiveEvent.land (active : ActiveEvent) (id : SinkId) (attempt : UInt32) (failed : Bool) :
    ActiveEvent :=
  { active with
    operations := active.operations.erase id
    attempts := if failed || active.remaining.card > 1 then active.attempts.insert id attempt
      else active.attempts }

/-- The longest delay between two attempts. -/
def maximumDelay : ℕ := fromMillis (max limits.retryMaxMs 1)

/-- The delay before a failed record is tried again; a hint of the sink may extend it. -/
def failureDelay (record : DeliveryRecord) (retry : Bool) (failure : SinkFailure) : ℕ :=
  let base := if retry then retryDelay limits record else maximumDelay limits
  match failure.retryAfter with
  | some hint => max base (min hint (maximumDelay limits))
  | none => base

/-- Process a failed attempt: required work is always queued again. -/
def failDelivery (clock : CompletionClock) (id : SinkId) (record : DeliveryRecord)
    (failure : SinkFailure) (definition : SinkDefinition) : BusM Unit := do
  let age := clampSigned 64 (clock.nowMs.toInt - record.acceptedAt.toInt)
  let retry := shouldRetry definition record age failure
  let required : Bool := definition.mode = .confirmedRequired
  updateSink id fun sink =>
    sink.noteFailure failure required (clock.pauseInstant + maximumDelay limits)
  if retry || required then
    let record := { record with
      nextAttempt := clock.retryInstant + failureDelay limits record retry failure }
    updateSink id fun sink => sink.noteRetry.onQueue (·.delay record)
  else
    updateSink id fun sink => sink.onQueue (·.release record)
    updateSink id SinkState.noteDrop
    modify (settle id record.event.eventId)

/-- Process a confirmed attempt. -/
def confirmDelivery (id : SinkId) (record : DeliveryRecord) : BusM Unit := do
  updateSink id SinkState.noteSuccess
  updateSink id fun sink => sink.onQueue (·.release record)
  modify (settle id record.event.eventId)

/-- Process the outcome of a delivery; anything but the current attempt is ignored. -/
def completeDetailed (clock : CompletionClock) (id : SinkId) (record : DeliveryRecord)
    (result : Except SinkFailure Unit) (definition : SinkDefinition) : BusM Unit := do
  let state ← get
  match state.active.lookup record.event.eventId with
  | none => return ()
  | some active =>
    if id ∉ active.remaining then return ()
    else if active.operations.lookup id ≠ some record.operation then return ()
    else
      ensure (¬ (id ∈ active.required ∧ state.pendingRequired = 0)) .internal
      updateSink id fun sink => sink.onQueue (·.land)
      let record := record.attempted
      match result with
      | .error failure =>
        modify fun s => s.updateActive record.event.eventId (·.land id record.attempt true)
        failDelivery limits clock id record failure definition
      | .ok () =>
        modify fun s => s.updateActive record.event.eventId (·.land id record.attempt false)
        confirmDelivery id record

end Netbaiot.EventBus
