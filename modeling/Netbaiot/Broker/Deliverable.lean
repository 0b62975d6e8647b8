import Netbaiot.Broker.Routing
import Netbaiot.Broker.Wire

/-!
# Deliveries across protocol versions

A publish is decoded with the codec of its sender and encoded with that of each subscriber.
The two codecs frame a packet differently: MQTT 5 has a property field, which takes one byte
even if it is empty.
-/

namespace Netbaiot.Broker

open Lib Mqtt

/-- The message of a PUBLISH packet that a connection decodes. -/
def received (limits : Limits) (clock : Option ℕ) (version : MqttVersion) (input : List UInt8) :
    Option BrokerMessage :=
  match version with
  | .v311 =>
      match V311.decode limits input with
      | .ok (some (.publish topic payload qos _ retain _, _)) =>
          some { topic, payload, qos := qos.toNat, retain }
      | _ => none
  | .v5 =>
      match V5.decode limits input with
      | .ok (some (.publish topic payload qos _ retain _ properties, _)) =>
          some { topic, payload, qos := qos.toNat, retain,
                 properties := .fromWire clock properties }
      | _ => none

/-- The whole seconds until a deadline, rounded up, as far as they fit. -/
def remainingSeconds (now deadline : Int64) : ℕ :=
  let remaining := clampSigned 64 (deadline.toInt - now.toInt)
  min ((remaining.toNat + 999) / 1000) (2 ^ 32 - 1)

/-- The properties of an outgoing PUBLISH packet. -/
def PublishProperties.toWire (clock : Option ℕ) (properties : PublishProperties) :
    V5.Properties where
  payloadFormat := properties.payloadFormat
  messageExpiry := properties.expiresAtMs.map (remainingSeconds (clockMs clock))
  contentType := properties.contentType
  responseTopic := properties.responseTopic
  correlationData := properties.correlationData
  userProperties := properties.userProperties

/-- The copy of a publish for a subscription. -/
def routedFor (message : BrokerMessage) (subscription : Subscription) : BrokerMessage :=
  message.routedTo (min message.qos subscription.qos)
    (subscription.retainAsPublished && message.retain)

/-- Encode a delivery for a subscriber; MQTT 5 clients may announce a maximum packet size. -/
def encodeDelivery (limits : Limits) (clock : Option ℕ) (version : MqttVersion)
    (clientMaximum : Option ℕ) (delivery : BrokerDelivery) : Except Error (List UInt8) :=
  let message := delivery.message
  let packetId := delivery.packetId.map UInt16.toNat
  match version with
  | .v311 =>
      V311.publish message.topic message.payload message.qos packetId message.retain delivery.dup
        limits
  | .v5 =>
      V5.publish
        { topic := message.topic, payload := message.payload, qos := message.qos, packetId,
          retain := message.retain, dup := delivery.dup,
          properties := message.properties.toWire clock }
        (min (clientMaximum.getD (2 ^ 32 - 1)) limits.maxMqttPacketSize)

/-- The body of the PUBLISH packet of a message with a packet identifier, for each version. -/
def bodySize (message : BrokerMessage) : MqttVersion → ℕ
  | .v311 => message.topic.length + message.payload.length + 4
  | .v5 => message.topic.length + message.payload.length + 4 +
      variableSize message.properties.wireBytes + message.properties.wireBytes

/-- The message of a decoded PUBLISH packet is well formed, and the packet had room for it. -/
structure Received (limits : Limits) (version : MqttVersion) (message : BrokerMessage) : Prop where
  topic : validTopic message.topic limits false
  short : message.topic.length < 2 ^ 16
  qos : message.qos ≤ 2
  properties : ∀ clock, (message.properties.toWire clock).Short
  plain : version = .v311 → message.properties = {}
  fits : message.qos ≠ 0 → FrameFits limits (bodySize message version)

theorem publishBytes_toWire (clock : Option ℕ) (properties : PublishProperties) :
    (properties.toWire clock).publishBytes = properties.wireBytes := by
  simp only [PublishProperties.wireBytes, PublishProperties.userBytes, V5.Properties.publishBytes,
    PublishProperties.toWire, Option.map_map, Function.comp_def]
  omega

/-- Every decoded PUBLISH packet had room for its message. -/
theorem received_spec {limits : Limits} {clock : Option ℕ} {version : MqttVersion}
    {input : List UInt8} {message : BrokerMessage}
    (h : received limits clock version input = some message) : Received limits version message := by
  have hidentified : ∀ {qos : UInt8} {packetId : Option ℕ}, (packetId.isSome ↔ qos ≠ 0) →
      qos.toNat ≠ 0 → (if packetId.isSome then 2 else 0) = 2 := by
    intro qos packetId hid hpos
    refine if_pos (hid.mpr fun hzero => hpos ?_)
    rw [hzero]
    rfl
  unfold received at h
  split at h
  · split at h
    · next topic payload qos packetId retain dup rest hdecode =>
      cases h
      obtain ⟨⟨hvalid, hshort, hqos, hid⟩, hfits⟩ := V311.decode_publish hdecode
      refine ⟨hvalid, hshort, UInt8.le_iff_toNat_le.mp hqos, fun _ => ?_, fun _ => rfl, ?_⟩
      · exact ⟨by rintro _ ⟨⟩, by rintro _ ⟨⟩, by rintro _ ⟨⟩, by rintro _ ⟨⟩⟩
      · intro hpos
        rw [hidentified hid hpos] at hfits
        exact hfits.mono (by simp only [bodySize]; omega)
    · cases h
  · split at h
    · next topic payload qos packetId retain dup properties rest hdecode =>
      cases h
      obtain ⟨⟨hvalid, hshort, hqos, hid⟩, hadmitted, length, hbytes, _, hfits⟩ :=
        V5.decode_publish hdecode
      refine ⟨hvalid, hshort, UInt8.le_iff_toNat_le.mp hqos, fun _ => ?_, ?_, ?_⟩
      · exact ⟨fun value hvalue => (hadmitted.contentType value hvalue).2.2,
          fun value hvalue => (hadmitted.responseTopic value hvalue).2.2,
          fun value hvalue => (hadmitted.correlationData value hvalue).2,
          fun pair hpair => ⟨(hadmitted.userProperties pair hpair).1.2,
            (hadmitted.userProperties pair hpair).2.2⟩⟩
      · intro hversion
        cases hversion
      · intro hpos
        rw [hidentified hid hpos] at hfits
        have hwire : (PublishProperties.fromWire clock properties).wireBytes =
            properties.publishBytes := wireBytes_withDeadline Option.isSome_map
        have hsize := variableSize_mono hbytes
        refine hfits.mono ?_
        simp only [bodySize, hwire]
        omega
    · cases h

/-- A delivery is encoded exactly if its body fits in the maximal packet. -/
theorem encodeDelivery_iff {limits : Limits} {publisher : MqttVersion} {message : BrokerMessage}
    (hreceived : Received limits publisher message) (now : Option ℕ) (subscriber : MqttVersion)
    {subscription : Subscription} (hqos : 1 ≤ min message.qos subscription.qos)
    {delivery : BrokerDelivery} (hmessage : delivery.message = routedFor message subscription)
    {id : PacketId} (hid : id ≠ 0) (hdelivery : delivery.packetId = some id) :
    (∃ frame, encodeDelivery limits now subscriber none delivery = .ok frame ∧
        frame.length ≤ limits.maxMqttPacketSize) ↔
      FrameFits limits (bodySize message subscriber) := by
  have hqosLe : min message.qos subscription.qos ≤ 2 := (min_le_left _ _).trans hreceived.qos
  have hfits := hreceived.fits (by omega)
  have htopic := hreceived.topic
  cases subscriber with
  | v311 =>
    have hidNat : id.toNat ≠ 0 := fun h => hid (UInt16.toNat_inj.mp h)
    simp only [encodeDelivery, hmessage, hdelivery, Option.map_some]
    exact V311.publish_iff _ _ htopic hreceived.short hqosLe (Nat.one_le_iff_ne_zero.mp hqos) hidNat
  | v5 =>
    let packet : V5.OutboundPublish :=
      { topic := message.topic, payload := message.payload,
        qos := min message.qos subscription.qos, packetId := some id.toNat,
        retain := (routedFor message subscription).retain, dup := delivery.dup,
        properties := message.properties.toWire now }
    have hwire : packet.properties.publishBytes = message.properties.wireBytes :=
      publishBytes_toWire now message.properties
    have hsize : packet.bodySize = bodySize message .v5 := by
      simp only [V5.OutboundPublish.bodySize, hwire, bodySize, packet, Option.isSome_some, if_true]
      omega
    have hsmall : message.properties.wireBytes ≤ 268435455 := by
      cases publisher with
      | v311 =>
        rw [hreceived.plain rfl]
        decide
      | v5 =>
        have := hfits.1
        simp only [bodySize] at this
        omega
    have hiff : (∃ frame, V5.publish packet (min (2 ^ 32 - 1) limits.maxMqttPacketSize) =
        .ok frame ∧ frame.length ≤ limits.maxMqttPacketSize) ↔ _ :=
      V5.publish_iff (min_le_right _ _) hqosLe (fun _ => Nat.one_le_iff_ne_zero.mp hqos)
        (fun _ => rfl) hreceived.short (hreceived.properties now) (hwire ▸ hsmall)
    have hvariable : ∀ n, variableSize n ≤ 4 := by
      intro n
      unfold variableSize
      split_ifs <;> omega
    simp only [encodeDelivery, hmessage, hdelivery, Option.map_some, Option.getD_none]
    refine hiff.trans ?_
    rw [hsize, FrameFits]
    have := hvariable (bodySize message .v5)
    omega

/-- An accepted PUBLISH packet can be encoded for every subscriber with a higher QoS than 0,
unless it is of MQTT 3.1.1, the subscriber of MQTT 5, and no byte is left for the length of the
empty properties. -/
theorem routed_publish_encoded_iff (limits : Limits) (clock now : Option ℕ)
    (publisher subscriber : MqttVersion) (input : List UInt8) (message : BrokerMessage)
    (hreceived : received limits clock publisher input = some message)
    (subscription : Subscription) (hqos : 1 ≤ min message.qos subscription.qos)
    (delivery : BrokerDelivery) (hmessage : delivery.message = routedFor message subscription)
    (id : PacketId) (hid : id ≠ 0) (hdelivery : delivery.packetId = some id) :
    (∃ frame, encodeDelivery limits now subscriber none delivery = .ok frame ∧
        frame.length ≤ limits.maxMqttPacketSize) ↔
      (publisher = .v311 → subscriber = .v5 →
        FrameFits limits (message.topic.length + message.payload.length + 5)) := by
  have hspec := received_spec hreceived
  have hfits := hspec.fits (by omega)
  rw [encodeDelivery_iff hspec now subscriber hqos hmessage hid hdelivery]
  cases publisher with
  | v5 =>
    refine iff_of_true (hfits.mono ?_) (fun hversion => nomatch hversion)
    cases subscriber <;> simp only [bodySize] <;> omega
  | v311 =>
    cases subscriber with
    | v311 => exact iff_of_true hfits fun _ hversion => nomatch hversion
    | v5 =>
      have hsize : bodySize message .v5 = message.topic.length + message.payload.length + 5 := by
        rw [bodySize, hspec.plain rfl]
        rfl
      rw [hsize]
      exact ⟨fun h _ _ => h, fun h => h rfl rfl⟩

/-- A PUBLISH packet of MQTT 3.1.1 to topic `a` with QoS 1 and a payload of the given length. -/
def plainPacket (payload : ℕ) : List UInt8 :=
  0x32 :: variableInteger (payload + 5) ++ [0, 1, 97, 0, 1] ++ List.replicate payload 120

/-- The first delivery of a message to a subscription with QoS 1. -/
def firstDelivery (message : BrokerMessage) : BrokerDelivery :=
  { message := routedFor message (.v311 1), packetId := some 1, dup := false, command := false,
    progress := none }

/-- Limits with packets of at most 4096 bytes. -/
def smallPackets : Limits :=
  { Limits.default with
    maxMqttPacketSize := 4096, maxRetainedMessageBytes := 4096, maxWillPayloadBytes := 4096 }

theorem routed_publish_encoded_iff_sample :
    received smallPackets none .v311 (plainPacket 4) =
      some { topic := [97], payload := List.replicate 4 120, qos := 1, retain := false } ∧
    ∃ frame, encodeDelivery smallPackets none .v5 none
        (firstDelivery
          { topic := [97], payload := List.replicate 4 120, qos := 1, retain := false })
        = .ok frame ∧ frame.length ≤ 4096 := by
  have hreceived : received smallPackets none .v311 (plainPacket 4) =
      some { topic := [97], payload := List.replicate 4 120, qos := 1, retain := false } := by
    decide +kernel
  refine ⟨hreceived, ?_⟩
  exact (routed_publish_encoded_iff smallPackets none none .v311 .v5 (plainPacket 4) _ hreceived
    (.v311 1) (by decide) (firstDelivery _) rfl 1 (by decide) rfl).mpr
    fun _ _ => ⟨by decide, by decide +kernel⟩

/-- A PUBLISH packet of exactly the maximal size is accepted from a client of MQTT 3.1.1, and
cannot be encoded for a subscriber of MQTT 5. -/
theorem routed_publish_discarded : smallPackets.validate = .ok () ∧
    ∃ message, received smallPackets none .v311 (plainPacket 4088) = some message ∧
      1 ≤ min message.qos 1 ∧
      encodeDelivery smallPackets none .v5 none (firstDelivery message) = .error .overloaded := by
  have hdiscarded : (received smallPackets none .v311 (plainPacket 4088)).any (fun message =>
      1 ≤ min message.qos 1 ∧ encodeDelivery smallPackets none .v5 none (firstDelivery message) =
        .error .overloaded) = true := by
    decide +kernel
  obtain ⟨message, hmessage, hoverloaded⟩ := (Option.any_eq_true _ _).mp hdiscarded
  have hboth := of_decide_eq_true hoverloaded
  exact ⟨by decide +kernel, message, hmessage, hboth.1, hboth.2⟩

end Netbaiot.Broker
