import Netbaiot.Auth.Cache
import Netbaiot.Lib.Run

/-!
# Authentication requests, invalidation and registration

Any number of requests run `authenticate_candidate` or `verify_signed_with_verifier` at the
same time.  A request holds the lock of the cache for one step at a time: it looks its key up,
and if nothing is cached it either follows the request that leads for this key or leads
itself, which means to call the provider without the lock and then to record the result.
Invalidations, registrations of sessions and the end of sessions are further steps; a
registration and an invalidation that go through the gate take two steps each, during which
the gate is held.  `Authentication` also keeps what the program forgets: every result that
was returned, every session that was ever registered, and every invalidation with its number.
What the program compares are epochs; the numbers of invalidations beside them say what really
came before what.
-/

namespace Netbaiot.Auth

open Lib

/-- An identity that a request returned: the epoch it is returned with, where it comes from,
and how many invalidations there were when it was read under the lock and when it was
returned. -/
structure Grant where
  key : AuthCacheKey
  identity : AuthenticatedDevice
  epoch : UInt64
  origin : Origin
  taken : ℕ
  served : ℕ

/-- How far a request has come.  A leader keeps the number and the epoch of its election; the
counts of invalidations are those of `Origin` and `Grant`. -/
inductive RequestStage where
  | looking
  | subscribed
  | following
  | elected
  | calling (id epoch : UInt64) (started : ℕ)
  | returned (id epoch : UInt64) (started : ℕ)
      (result : Except Error (AuthenticatedDevice ⊕ DeviceVerifier))
  | verifying (found : DeviceVerifier) (epoch : UInt64) (origin : Origin) (taken : ℕ)

structure Request where
  key : AuthCacheKey
  stage : RequestStage

/-- A request that returned. -/
structure Returned where
  request : ℕ
  result : Except Error Grant

/-- A registered session. -/
structure SessionEndpoint where
  generation : ℕ
  auth : AuthenticatedDevice

/-- The generation of a session, what it was registered with, and how many invalidations there
were when that was found to be current. -/
structure SessionLease where
  generation : ℕ
  candidate : Grant
  checked : ℕ

/-- An invalidation and its number, counted from 1. -/
structure Invalidated where
  number : ℕ
  invalidation : AuthInvalidation

/-- What the holder of the gate is doing. -/
inductive Gate where
  | registering (candidate : Grant) (checked : ℕ)
  | invalidating (invalidated : Invalidated)

structure Authentication where
  cache : AuthCacheState
  waiters : ℕ
  requests : Table ℕ Request
  nextRequest : ℕ
  returned : List Returned
  gate : Option Gate
  generation : ℕ
  sessions : Table DeviceKey SessionEndpoint
  cancelled : List ℕ
  leases : List SessionLease
  invalidations : List Invalidated
  completed : List Invalidated

/-- What can happen.  A follower may wake or give up at any moment, a leader may be cancelled
while it waits for the provider, and the provider may answer anything; the result of the
signature check and whether the registry of sessions admits a session are arguments. -/
inductive AuthAction where
  | authenticate (credentialId secret : List UInt8)
  | verifySigned (credentialId : List UInt8)
  | lookup (request now later : ℕ)
  | acquire (request : ℕ)
  | wake (request : ℕ) (timeout : Bool)
  | startCall (request : ℕ)
  | respond (request : ℕ) (result : Except Error AuthenticatedDevice)
  | respondVerifier (request : ℕ) (result : Except Error DeviceVerifier)
  | record (request now : ℕ)
  | check (request : ℕ) (valid : Bool)
  | cancel (request : ℕ)
  | invalidate (invalidation : AuthInvalidation)
  | beginRegister (returned : ℕ)
  | finishRegister (admitted : Bool)
  | beginInvalidate (invalidation : AuthInvalidation)
  | finishInvalidate
  | disconnect (device : DeviceKey)
  | dropLease (device : DeviceKey) (generation : ℕ)

variable (s : Authentication) (limits : Limits) (r : ℕ) (req : Request)

namespace Authentication

def new (limits : Limits) : Authentication :=
  ⟨.new, limits.authCacheMaxWaiters, ∅, 0, [], none, 0, ∅, [], [], [], []⟩

/-- How many invalidations there have been. -/
def count : ℕ := s.invalidations.length

def setStage (stage : RequestStage) : Authentication :=
  { s with requests := s.requests.insert r { req with stage := stage } }

/-- A request returns. -/
def finish (result : Except Error Grant) : Authentication :=
  { s with requests := s.requests.erase r, returned := ⟨r, result⟩ :: s.returned }

/-- A request begins with its key, if it has one. -/
def enter (key : Except Error AuthCacheKey) : Authentication :=
  let r := s.nextRequest
  let s := { s with nextRequest := r + 1 }
  match key with
  | .error e => { s with returned := ⟨r, .error e⟩ :: s.returned }
  | .ok key => { s with requests := s.requests.insert r ⟨key, .looking⟩ }

/-- An identity that is valid now is returned. -/
def grant (identity : AuthenticatedDevice) (origin : Origin) : Authentication :=
  s.finish r (.ok ⟨req.key, identity, s.cache.epoch, origin, s.count, s.count⟩)

/-- A request finds a cached result. -/
def hit (entry : CacheEntry) : Authentication :=
  match entry.value, req.key.verifier with
  | .positive auth, false => s.grant r req auth entry.origin
  | .verifier found, true =>
      s.setStage r req (.verifying found s.cache.epoch entry.origin s.count)
  | .negative, _ => s.finish r (.error .authentication)
  | .positive _, true | .verifier _, false => s.finish r (.error .internal)

/-- A request that found nothing and nobody leading for its key leads. -/
def elect : Authentication :=
  let id := s.cache.nextInflightId
  let cache := { s.cache with
    nextInflightId := max (id + 1) 1
    inflight := s.cache.inflight.insert req.key ⟨s.cache.epoch, id, r, s.count⟩ }
  { s with cache := cache }.setStage r req .elected

/-- A request looks its key up. -/
def lookup (s : Authentication) (r : ℕ) (req : Request) (now later : ℕ) : Authentication :=
  let cache := (s.cache.pruneExpiredUpTo AuthCacheState.expiryPruneBudget now).expireTarget
    req.key later
  let s := { s with cache := cache }
  match s.cache.entries.lookup req.key with
  | some entry => s.hit r req entry
  | none =>
      match s.cache.inflight.lookup req.key with
      | some _ => s.setStage r req .subscribed
      | none => s.elect r req

/-- A follower takes one of the places for waiting. -/
def acquire : Authentication :=
  if s.waiters = 0 then s.finish r (.error .overloaded)
  else { s with waiters := s.waiters - 1 }.setStage r req .following

/-- A follower gives its place back, and looks again unless its time is over. -/
def wake (timeout : Bool) : Authentication :=
  let s := { s with waiters := s.waiters + 1 }
  if timeout then s.finish r (.error .timeout) else s.setStage r req .looking

/-- A leader reads its election and calls the provider. -/
def startCall : Authentication :=
  match s.cache.inflight.lookup req.key with
  | none => s.finish r (.error .internal)
  | some inflight => s.setStage r req (.calling inflight.id inflight.epoch s.count)

/-- The result of a leader goes into the cache. -/
def store (value : CachedAuth) (now : ℕ) (origin : Origin) : Authentication :=
  let cache := s.cache.insertCacheEntry limits req.key value (entryTtl limits value)
    (entryBytes req.key value) now origin
  { s with cache := cache }

/-- A leader with a result that is still current. -/
def conclude (result : Except Error (AuthenticatedDevice ⊕ DeviceVerifier)) (now : ℕ)
    (origin : Origin) : Authentication :=
  match result with
  | .ok (.inl auth) => (s.store limits req (.positive auth) now origin).grant r req auth origin
  | .ok (.inr found) =>
      let s := s.store limits req (.verifier found) now origin
      s.setStage r req (.verifying found s.cache.epoch origin s.count)
  | .error e =>
      if e = .authentication ∨ e = .forbidden then
        (s.store limits req .negative now origin).finish r
          (.error (if req.key.verifier then .authentication else e))
      else s.finish r (.error e)

/-- A leader ends its election and records its result, unless the epoch is not that of the
election. -/
def record (epoch : UInt64) (started : ℕ)
    (result : Except Error (AuthenticatedDevice ⊕ DeviceVerifier)) (now : ℕ) : Authentication :=
  match s.cache.inflight.lookup req.key with
  | none => s.finish r (.error .internal)
  | some inflight =>
      let s := { s with cache := { s.cache with inflight := s.cache.inflight.erase req.key } }
      if s.cache.epoch ≠ epoch then s.finish r (.error .unavailable)
      else s.conclude limits r req result now ⟨inflight.elected, started, s.count⟩

/-- A datagram was checked against the verifier without the lock. -/
def check (found : DeviceVerifier) (epoch : UInt64)
    (origin : Origin) (taken : ℕ) (valid : Bool) : Authentication :=
  if !valid then s.finish r (.error .authentication)
  else if s.cache.epoch ≠ epoch then s.finish r (.error .unavailable)
  else s.finish r (.ok ⟨req.key, found.identity, epoch, origin, taken, s.count⟩)

/-- The guard of a leader that is dropped during its call. -/
def dropLeader (id : UInt64) : Authentication :=
  if (s.cache.inflight.lookup req.key).any fun entry => entry.id = id then
    { s with cache := { s.cache with inflight := s.cache.inflight.erase req.key } }
  else s

/-- A request is dropped where it can be: before it runs, while it follows, or during its
call of the provider. -/
def cancel : Authentication :=
  let dropped := { s with requests := s.requests.erase r }
  match req.stage with
  | .looking => dropped
  | .following => { dropped with waiters := s.waiters + 1 }
  | .calling id _ _ => dropped.dropLeader req id
  | _ => s

/-- The cache is invalidated. -/
def invalidate (s : Authentication) (invalidation : AuthInvalidation) : Authentication :=
  { s with
    cache := s.cache.invalidate invalidation
    invalidations := ⟨s.count + 1, invalidation⟩ :: s.invalidations }

/-- A registration takes the gate if its candidate is still current. -/
def beginRegister (candidate : Grant) : Authentication :=
  if s.cache.epoch ≠ candidate.epoch then s
  else { s with gate := some (.registering candidate s.count) }

/-- Cancel the sessions that an invalidation concerns. -/
def disconnectMatching (invalidation : AuthInvalidation) : Authentication :=
  let concerned := s.sessions.values.filter fun endpoint => invalidates invalidation endpoint.auth
  { s with cancelled := concerned.map SessionEndpoint.generation ++ s.cancelled }

/-- Cancel the session of a device. -/
def disconnect (device : DeviceKey) : Authentication :=
  let current := ((s.sessions.lookup device).map SessionEndpoint.generation).toList
  { s with cancelled := current ++ s.cancelled }

/-- The registry of sessions admits a session; it cancels the one it replaces. -/
def register (candidate : Grant) (checked : ℕ) : Authentication :=
  let device := candidate.identity.deviceKey
  let generation := s.generation + 1
  let replaced := ((s.sessions.lookup device).map SessionEndpoint.generation).toList
  { s with
    generation := generation
    sessions := s.sessions.insert device ⟨generation, candidate.identity⟩
    cancelled := replaced ++ s.cancelled
    leases := ⟨generation, candidate, checked⟩ :: s.leases }

/-- The lease of a session is dropped. -/
def dropLease (device : DeviceKey) (generation : ℕ) : Authentication :=
  if (s.sessions.lookup device).any fun endpoint => endpoint.generation = generation then
    { s with
      sessions := s.sessions.erase device
      cancelled := generation :: s.cancelled }
  else s

/-- A step of one request, which is possible in its own stages only. -/
def stepRequest :
    AuthAction → Authentication
  | .lookup _ now later =>
      match req.stage with
      | .looking => s.lookup r req now later
      | _ => s
  | .acquire _ =>
      match req.stage with
      | .subscribed => s.acquire r req
      | _ => s
  | .wake _ timeout =>
      match req.stage with
      | .following => s.wake r req timeout
      | _ => s
  | .startCall _ =>
      match req.stage with
      | .elected => s.startCall r req
      | _ => s
  | .respond _ result =>
      match req.stage, req.key.verifier with
      | .calling id epoch started, false =>
          s.setStage r req (.returned id epoch started (result.map .inl))
      | _, _ => s
  | .respondVerifier _ result =>
      match req.stage, req.key.verifier with
      | .calling id epoch started, true =>
          s.setStage r req (.returned id epoch started (result.map .inr))
      | _, _ => s
  | .record _ now =>
      match req.stage with
      | .returned _ epoch started result => s.record limits r req epoch started result now
      | _ => s
  | .check _ valid =>
      match req.stage with
      | .verifying found epoch origin taken => s.check r req found epoch origin taken valid
      | _ => s
  | .cancel _ => s.cancel r req
  | _ => s

/-- The request that an action is a step of. -/
def requestOf : AuthAction → Option ℕ
  | .lookup r _ _ | .acquire r | .wake r _ | .startCall r | .respond r _ | .respondVerifier r _
  | .record r _ | .check r _ | .cancel r => some r
  | _ => none

def step (sha : Sha256) (a : AuthAction) : Authentication :=
  match (requestOf a).bind fun r => (s.requests.lookup r).map fun req => (r, req) with
  | some (r, req) => s.stepRequest limits r req a
  | none =>
      match a, s.gate with
      | .authenticate credentialId secret, _ => s.enter (cacheKey sha credentialId secret)
      | .verifySigned credentialId, _ => s.enter (verifierCacheKey credentialId)
      | .invalidate invalidation, _ => s.invalidate invalidation
      | .beginRegister index, none =>
          match s.returned[index]? with
          | some ⟨_, .ok candidate⟩ => s.beginRegister candidate
          | _ => s
      | .finishRegister admitted, some (.registering candidate checked) =>
          let s := { s with gate := none }
          if admitted then s.register candidate checked else s
      | .beginInvalidate invalidation, none =>
          let s := s.invalidate invalidation
          { s with gate := some (.invalidating ⟨s.count, invalidation⟩) }
      | .finishInvalidate, some (.invalidating invalidated) =>
          let s := s.disconnectMatching invalidated.invalidation
          { s with gate := none, completed := invalidated :: s.completed }
      | .disconnect device, _ => s.disconnect device
      | .dropLease device generation, _ => s.dropLease device generation
      | _, _ => s

end Authentication

/-- Requests, invalidations and registrations in any order. -/
def authenticating (sha : Sha256) : System Authentication AuthAction where
  start s := s = .new limits
  step s a s' := s' = s.step limits sha a

end Netbaiot.Auth
