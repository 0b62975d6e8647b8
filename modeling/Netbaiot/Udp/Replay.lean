import Mathlib.Data.Prod.Lex
import Netbaiot.Lib.Tally
import Netbaiot.Lib.Window
import Netbaiot.Limits

/-!
# The replay window of signed datagrams

Every device boot has an entry that remembers which sequence numbers were accepted.  An
entry lives until its expiry time; a second set orders the entries by that time, so that
each check first removes what has expired.  A datagram is checked, and only if the event
it carries was accepted its sequence number is committed.
-/

namespace Netbaiot.Udp

open Lib

/-- How the sequence numbers of a device boot may arrive. -/
inductive ReplayPolicy where
  | window64
  | monotonic
deriving DecidableEq

/-- What an entry remembers: the sequence window, and when the entry expires. -/
structure Replay extends Window 64 where
  expires : Int64

/-- Only committed sequence numbers take the duplicate path. -/
inductive ReplayDecision where
  | new
  | acceptedDuplicate
deriving DecidableEq

/-- A boot of a device under one version of its credential. -/
structure ReplayKey where
  device : DeviceKey
  boot : BitVec 128
  credentialVersion : UInt32
deriving DecidableEq

/-- An entry in the order of expiry. -/
structure ReplayExpiry where
  expires : Int64
  key : ReplayKey

/-- The order of the expiry set: by time first, then by the parts of the key. -/
def ReplayExpiry.rank (e : ReplayExpiry) : Int64 ×ₗ TenantId ×ₗ ProductId ×ₗ DeviceId ×ₗ ℕ ×ₗ ℕ :=
  toLex (e.expires, toLex (e.key.device.tenantId, toLex (e.key.device.productId,
    toLex (e.key.device.deviceId, toLex (e.key.boot.toNat, e.key.credentialVersion.toNat)))))

theorem ReplayExpiry.rank_injective : Function.Injective ReplayExpiry.rank := by
  rintro ⟨expires, ⟨⟨tenant, product, device⟩, boot, version⟩⟩
    ⟨expires', ⟨⟨tenant', product', device'⟩, boot', version'⟩⟩ h
  simp only [rank, EmbeddingLike.apply_eq_iff_eq, Prod.mk.injEq] at h
  obtain ⟨rfl, rfl, rfl, rfl, hboot, hversion⟩ := h
  rw [BitVec.eq_of_toNat_eq hboot, UInt32.toNat_inj.mp hversion]

instance : LinearOrder ReplayExpiry :=
  LinearOrder.lift' ReplayExpiry.rank ReplayExpiry.rank_injective

/-- The entries, their order of expiry, and how many there are of each device and tenant. -/
structure ReplayWindow where
  entries : Table ReplayKey Replay
  expirations : Table ReplayExpiry Unit
  devices : Table DeviceKey ℕ
  tenants : Table TenantId ℕ

variable (limits : Limits) (w : ReplayWindow)

namespace ReplayWindow

def new : ReplayWindow := ⟨∅, ∅, ∅, ∅⟩

/-- Remove the entry of an expiry that was taken from the set. -/
def dropEntry (key : ReplayKey) : ReplayWindow :=
  if (w.entries.lookup key).isSome then
    { w with
      entries := w.entries.erase key
      devices := release w.devices key.device
      tenants := release w.tenants key.device.tenantId }
  else w

/-- Remove expired entries, earliest first; the fuel bounds the number of removals. -/
def pruneLoop : ℕ → Int64 → ReplayWindow → ReplayWindow
  | 0, _, w => w
  | fuel + 1, now, w =>
      match w.expirations.popFirst with
      | none => w
      | some (e, _, rest) =>
          if e.expires ≤ now then
            pruneLoop fuel now ({ w with expirations := rest }.dropEntry e.key)
          else w

/-- Remove every entry that has expired. -/
def prune (now : Int64) : ReplayWindow := pruneLoop w.expirations.size now w

/-- Decide about a sequence number once expired entries are gone. -/
def decision (key : ReplayKey) (seq : ℕ) (policy : ReplayPolicy) : Except Error ReplayDecision :=
  match w.entries.lookup key with
  | some entry =>
      if seq ≤ entry.max then
        let delta := entry.max - seq
        if 64 ≤ delta then .error .conflict
        else if entry.marked delta then .ok .acceptedDuplicate
        else if policy = .monotonic then .error .conflict
        else .ok .new
      else .ok .new
  | none =>
      if limits.maxReplayEntries ≤ w.entries.size ∨
          limits.maxReplayEntriesPerDevice ≤ (w.devices.lookup key.device).getD 0 ∨
          limits.maxReplayEntriesPerTenant ≤ (w.tenants.lookup key.device.tenantId).getD 0 then
        .error .overloaded
      else .ok .new

/-- Check a sequence number that was stamped by the device and arrives now. -/
def checkWithPolicy (key : ReplayKey) (seq : ℕ)
    (timestamp now : Int64) (policy : ReplayPolicy) : Except Error ReplayDecision × ReplayWindow :=
  if limits.udpClockSkewMs < (now.toInt - timestamp.toInt).natAbs then (.error .authentication, w)
  else
    let w := w.prune now
    (w.decision limits key seq policy, w)

/-- When an entry that is committed now expires. -/
def expiryAt (now : Int64) : Int64 :=
  saturatingAdd64 now (Int64.ofInt limits.replayTtlMs)

/-- Move an entry to its new expiry time, or count a new one. -/
def refresh (key : ReplayKey) (expires : Int64) : ReplayWindow :=
  let previous := (w.entries.lookup key).map Replay.expires
  if previous = some expires then w
  else
    match previous with
    | some previous =>
        { w with expirations := (w.expirations.erase ⟨previous, key⟩).insert ⟨expires, key⟩ () }
    | none =>
        { w with
          devices := bump w.devices key.device
          tenants := bump w.tenants key.device.tenantId
          expirations := w.expirations.insert ⟨expires, key⟩ () }

/-- Remember a sequence number whose event was accepted. -/
def commit (key : ReplayKey) (seq : ℕ) (now : Int64) : ReplayWindow :=
  let expires := expiryAt limits now
  let w := w.refresh key expires
  let entry := (w.entries.lookup key).getD { max := seq, bits := 0, expires := expires }
  { w with
    entries := w.entries.insert key { toWindow := entry.toWindow.mark seq, expires := expires } }

end ReplayWindow

/-- The replay fields of a verified datagram. -/
structure Datagram where
  key : ReplayKey
  seq : ℕ
  timestamp : Int64
  policy : ReplayPolicy

/-- Accept a verified datagram that arrives now: a new one is committed once its event is
accepted, at the time given by `ingested`. -/
def acceptVerified (d : Datagram) (now : Int64)
    (ingested : Option Int64) : Except Error ReplayDecision × ReplayWindow :=
  let checked := w.checkWithPolicy limits d.key d.seq d.timestamp now d.policy
  match checked.1, ingested with
  | .ok .new, some committed => (.ok .new, checked.2.commit limits d.key d.seq committed)
  | decision, _ => (decision, checked.2)

end Netbaiot.Udp
