import Netbaiot.Broker.Deliverable
import Netbaiot.Mqtt.PublishReading

/-!
# Round trip of PUBLISH packets

The encoder and the decoder of one protocol version agree on every PUBLISH packet.  For
MQTT 5 this rests on `PublishProperties.valid`: what the broker checks of the properties of a
message implies every limit that the decoder puts on the properties of a packet.
-/

namespace Netbaiot.Broker

open Lib Mqtt

/-- What the broker checks of the properties of a message. -/
structure PublishProperties.Valid (properties : PublishProperties) (limits : Limits) : Prop where
  payloadFormat : ∀ value, properties.payloadFormat = some value → value ≤ 1
  contentType : ∀ value, properties.contentType = some value →
    value.length ≤ limits.maxMqttContentTypeBytes ∧ validUtf8 value
  responseTopic : ∀ value, properties.responseTopic = some value →
    value.length ≤ limits.maxMqttResponseTopicBytes ∧ validTopic value limits false
  correlationData : ∀ value, properties.correlationData = some value →
    value.length ≤ limits.maxMqttCorrelationDataBytes
  userCount : properties.userProperties.length ≤ limits.maxMqttUserProperties
  userProperties : ∀ pair ∈ properties.userProperties, validUtf8 pair.1 ∧ validUtf8 pair.2
  userBytes : properties.userBytes ≤ limits.maxMqttUserPropertyBytes
  wireBytes : properties.wireBytes ≤ limits.maxMqttPropertyBytes

theorem PublishProperties.valid_spec {properties : PublishProperties} {limits : Limits}
    (h : properties.valid limits) : properties.Valid limits := by
  simp only [PublishProperties.valid, Bool.and_eq_true, decide_eq_true_eq, Option.all_eq_true,
    List.all_eq_true] at h
  obtain ⟨⟨⟨⟨⟨⟨⟨⟨hformat, _⟩, hcontent⟩, hresponse⟩, hcorrelation⟩, hcount⟩, huser⟩, huserBytes⟩,
    hwire⟩ := h
  exact ⟨hformat, hcontent, hresponse, hcorrelation, hcount, huser, huserBytes, hwire⟩

theorem remainingSeconds_lt (now deadline : Int64) : remainingSeconds now deadline < 2 ^ 32 := by
  unfold remainingSeconds
  dsimp only
  omega

/-- Valid properties of a message are within the limits for the properties of a packet, as long
as their strings can be written at all. -/
theorem PublishProperties.Valid.admitted {properties : PublishProperties} {limits : Limits}
    (h : properties.Valid limits) {clock : Option ℕ} (hshort : (properties.toWire clock).Short) :
    (properties.toWire clock).Admitted limits where
  payloadFormat := h.payloadFormat
  messageExpiry value hvalue := by
    obtain ⟨deadline, _, rfl⟩ := Option.map_eq_some_iff.mp hvalue
    exact remainingSeconds_lt _ _
  contentType value hvalue :=
    ⟨(h.contentType value hvalue).2, (h.contentType value hvalue).1,
      hshort.contentType value hvalue⟩
  responseTopic value hvalue :=
    ⟨(h.responseTopic value hvalue).2, (h.responseTopic value hvalue).1,
      hshort.responseTopic value hvalue⟩
  correlationData value hvalue :=
    ⟨h.correlationData value hvalue, hshort.correlationData value hvalue⟩
  userCount := h.userCount
  userProperties pair hpair :=
    ⟨⟨(h.userProperties pair hpair).1, (hshort.userProperties pair hpair).1⟩,
      (h.userProperties pair hpair).2, (hshort.userProperties pair hpair).2⟩

/-- The decoder counts one byte less for each user property than the broker. -/
theorem userBytes_le (properties : PublishProperties) :
    V5.userBytes properties.userProperties ≤ properties.userBytes := by
  refine List.sum_le_sum fun pair _ => ?_
  show pair.1.length + pair.2.length + 4 ≤ pair.1.length + pair.2.length + 5
  omega

/-- What the gateway encodes as a PUBLISH packet, its decoder of the same protocol version
takes from any buffer that begins with it, as the same packet. -/
theorem publish_decoded (limits : Limits) (topic : Text) (payload : List UInt8) (qos : ℕ)
    (packetId : Option ℕ) (retain dup : Bool) (htopic : validTopic topic limits false)
    (hid : PacketIdFor qos packetId) (rest : List UInt8) :
    (∀ frame, V311.publish topic payload qos packetId retain dup limits = .ok frame →
      V311.decode limits (frame ++ rest) =
        .ok (some (.publish topic payload (UInt8.ofNat qos) packetId retain dup, rest))) ∧
    ∀ (properties : PublishProperties) (clock : Option ℕ) (maximum : ℕ) (frame : List UInt8),
      properties.valid limits →
      V5.publish { topic, payload, qos, packetId, retain, dup,
                   properties := properties.toWire clock } maximum = .ok frame →
      frame.length ≤ limits.maxMqttPacketSize →
      V5.decode limits (frame ++ rest) =
        .ok (some (.publish topic payload (UInt8.ofNat qos) packetId retain dup
          (properties.toWire clock), rest)) := by
  constructor
  · intro frame hframe
    exact V311.decode_publish_encoded hid hframe rest
  · intro properties clock maximum frame hvalid hframe hlimit
    have hspec := PublishProperties.valid_spec hvalid
    have huser : V5.userBytes properties.userProperties ≤ limits.maxMqttUserPropertyBytes :=
      (userBytes_le properties).trans hspec.userBytes
    have hbytes : (properties.toWire clock).publishBytes ≤ limits.maxMqttPropertyBytes := by
      rw [publishBytes_toWire]
      exact hspec.wireBytes
    have hpart : (properties.toWire clock).publishPart = properties.toWire clock := rfl
    exact V5.decode_publish_encoded { topic, payload, qos, packetId, retain, dup,
                                      properties := properties.toWire clock }
      htopic hid hspec.admitted hpart huser hbytes hframe hlimit rest

/-- Properties of every kind. -/
def allProperties : PublishProperties where
  payloadFormat := some 1
  expiresAtMs := some 90000
  contentType := some (ascii "text/plain")
  responseTopic := some (ascii "a/reply")
  correlationData := some [0, 255]
  userProperties := [(ascii "k", ascii "1"), (ascii "k", ascii "2")]

/-- A repeated delivery with QoS 1 and every kind of property. -/
def allPropertiesPacket : V5.OutboundPublish where
  topic := ascii "a/b"
  payload := ascii "hello"
  qos := 1
  packetId := some 258
  retain := true
  dup := true
  properties := allProperties.toWire (some 30500)

theorem publish_decoded_all_properties :
    ∃ frame, V5.publish allPropertiesPacket Limits.default.maxMqttPacketSize = .ok frame ∧
      V5.decode Limits.default frame =
        .ok (some (.publish (ascii "a/b") (ascii "hello") 1 (some 258)
        true true (allProperties.toWire (some 30500)), [])) := by
  have hencoded : (V5.publish allPropertiesPacket Limits.default.maxMqttPacketSize).toOption.any
      (fun frame => frame.length ≤ Limits.default.maxMqttPacketSize) = true := by
    decide +kernel
  cases hframe : V5.publish allPropertiesPacket Limits.default.maxMqttPacketSize with
  | error e =>
    rw [hframe] at hencoded
    cases hencoded
  | ok frame =>
    rw [hframe] at hencoded
    have hlimit : frame.length ≤ Limits.default.maxMqttPacketSize := of_decide_eq_true hencoded
    have hdecoded := (publish_decoded Limits.default (ascii "a/b") (ascii "hello") 1 (some 258) true
      true (by decide +kernel) ⟨by decide, by rintro _ ⟨⟩; decide, by rintro _ ⟨⟩; decide⟩ []).2
      allProperties (some 30500) _ frame (by decide +kernel) hframe hlimit
    rw [List.append_nil] at hdecoded
    exact ⟨frame, rfl, hdecoded⟩

end Netbaiot.Broker
