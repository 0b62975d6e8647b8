import Netbaiot.Broker.Session
import Netbaiot.Lib.Bisect
import Netbaiot.Mqtt.PublishSize

/-!
# How large a command may be

The payload of a command is limited before its PUBLISH packet is built: the limit is found by
bisection over the size of the packet.  It is exact: a longer payload does not fit in the
packet and every shorter one does (`commandPayloadLimit_exact`).
-/

namespace Netbaiot.Broker

open Lib Mqtt

/-- Whether a packet with a body of this size is within the maximum. -/
def withinMaximum (maximum remaining : ℕ) : Bool :=
  match encodedSize remaining with
  | .ok size => size ≤ maximum
  | .error _ => false

/-- The largest payload of a command on this topic.  The packet identifier is counted for any
QoS, and with MQTT 5 the expiry of the message. -/
def commandPayloadLimit (topic : Text) (maximum : ℕ) (version : MqttVersion) (limits : Limits) :
    ℕ :=
  if ¬ topic.length < 2 ^ 16 ∨ ¬ validTopic topic limits false then 0
  else
    let overhead := topic.length + if version = .v5 then 10 else 4
    bisect (fun mid => withinMaximum maximum (overhead + mid)) 0
      (min maximum 268435455 - overhead)

/-- The PUBLISH packet of a command, encoded for the maximum of its receiver. -/
def encodeCommand (limits : Limits) (maximum : ℕ) (topic : Text) (payload : List UInt8)
    (qos id expiry : ℕ) (retain dup : Bool) : MqttVersion → Except Error (List UInt8)
  | .v311 => V311.publish topic payload qos (some id) retain dup
      { limits with maxMqttPacketSize := maximum }
  | .v5 => V5.publish
      { topic, payload, qos, retain, dup
        packetId := some id
        properties := { messageExpiry := some expiry } } maximum

/-- The size of a packet is checked as the encoders check it. -/
theorem withinMaximum_iff (limits : Limits) {maximum size : ℕ} :
    withinMaximum maximum size = true ↔
      FrameFits { limits with maxMqttPacketSize := maximum } size := by
  unfold withinMaximum FrameFits
  by_cases hsmall : size ≤ 268435455
  · rw [encodedSize_of_le hsmall]
    simp [hsmall]
  · have hlarge : encodedSize size = .error .invalid := by
      unfold encodedSize
      split_ifs <;> first | rfl | omega
    rw [hlarge]
    simp [hsmall]

/-- A command is encoded exactly if its packet is within the maximum. -/
theorem encodeCommand_iff {limits : Limits} {topic : Text} (htopic : validTopic topic limits false)
    (hshort : topic.length < 2 ^ 16) {qos id : ℕ} (hqos : qos ≤ 2) (hpos : qos ≠ 0) (hid : id ≠ 0)
    (maximum : ℕ) (payload : List UInt8) (expiry : ℕ) (retain dup : Bool) (version : MqttVersion) :
    (∃ frame, encodeCommand limits maximum topic payload qos id expiry retain dup version =
        .ok frame ∧ frame.length ≤ maximum) ↔
      FrameFits { limits with maxMqttPacketSize := maximum }
        (topic.length + (if version = .v5 then 10 else 4) + payload.length) := by
  cases version with
  | v311 =>
    rw [if_neg nofun, Nat.add_right_comm]
    exact V311.publish_iff retain dup htopic hshort hqos hpos hid
  | v5 =>
    let packet : V5.OutboundPublish :=
      { topic, payload, qos, retain, dup
        packetId := some id
        properties := { messageExpiry := some expiry } }
    have hsize : packet.bodySize = topic.length + 10 + payload.length := by
      show topic.length + 2 + 2 + 1 + 5 + payload.length = _
      omega
    rw [if_pos rfl, ← hsize]
    exact V5.publish_iff le_rfl hqos (fun _ => hpos) (fun _ => rfl) hshort
      ⟨nofun, nofun, nofun, nofun⟩ (by decide : 5 ≤ 268435455)

/-- No command is encoded on a topic that is too long for a length of two bytes. -/
theorem short_of_encodeCommand {limits : Limits} {maximum : ℕ} {topic : Text}
    {payload frame : List UInt8} {qos id expiry : ℕ} {retain dup : Bool} {version : MqttVersion}
    (h : encodeCommand limits maximum topic payload qos id expiry retain dup version = .ok frame) :
    topic.length < 2 ^ 16 := by
  cases version with
  | v311 =>
    obtain ⟨_, h⟩ := check_bind_eq_ok.mp h
    exact (check_bind_eq_ok.mp h).1
  | v5 =>
    obtain ⟨_, h⟩ := check_bind_eq_ok.mp h
    obtain ⟨_, htopic, _⟩ := except_bind_eq_ok.mp h
    exact (check_bind_eq_ok.mp htopic).1

/-- A payload that is not empty fits in the packet of a command exactly if it is within the
limit. -/
theorem commandPayloadLimit_exact (limits : Limits) (topic : Text)
    (htopic : validTopic topic limits false) (maximum : ℕ) (version : MqttVersion)
    (payload : List UInt8) (hpayload : 1 ≤ payload.length) (qos id expiry : ℕ)
    (hqos : 1 ≤ qos ∧ qos ≤ 2) (hid : 1 ≤ id) (retain dup : Bool) :
    (∃ frame, encodeCommand limits maximum topic payload qos id expiry retain dup version =
        .ok frame ∧ frame.length ≤ maximum) ↔
      payload.length ≤ commandPayloadLimit topic maximum version limits := by
  unfold commandPayloadLimit
  by_cases hshort : topic.length < 2 ^ 16
  · rw [if_neg (not_or.mpr ⟨not_not.mpr hshort, not_not.mpr htopic⟩), encodeCommand_iff htopic
      hshort hqos.2 (Nat.ne_of_gt hqos.1) (Nat.ne_of_gt hid)]
    generalize topic.length + (if version = .v5 then 10 else 4) = overhead
    obtain ⟨-, hle, hspec⟩ := bisect_spec (fun mid => withinMaximum maximum (overhead + mid))
      (fun hmn hn => (withinMaximum_iff limits).mpr
        (((withinMaximum_iff limits).mp hn).mono (Nat.add_le_add_left hmn _)))
      0 (min maximum 268435455 - overhead)
    by_cases hhigh : payload.length ≤ min maximum 268435455 - overhead
    · rw [← withinMaximum_iff]
      exact hspec _ hpayload hhigh
    · refine iff_of_false (fun hfits => ?_) fun hsmall => ?_
      · obtain ⟨hsmall, hmax⟩ := hfits
        simp only at hmax
        omega
      · exact hhigh (hsmall.trans (by simpa using hle))
  · rw [if_pos (.inl hshort)]
    exact iff_of_false (fun ⟨_, h, _⟩ => hshort (short_of_encodeCommand h)) (by omega)

theorem commandPayloadLimit_exact_sample :
    validTopic (ascii "a/b") Limits.default false = true ∧
      ∃ frame, encodeCommand Limits.default 20 (ascii "a/b") [1, 2] 1 7 30 false false .v5 =
        .ok frame ∧ frame.length ≤ 20 := by
  refine ⟨by decide +kernel, ?_⟩
  exact (commandPayloadLimit_exact Limits.default (ascii "a/b") (by decide +kernel) 20 .v5 [1, 2]
    (by decide) 1 7 30 (by decide) (by decide) false false).mpr (by decide +kernel)

end Netbaiot.Broker
