import Netbaiot.Broker.PublishRoundTrip
import Netbaiot.Mqtt.ClientDeliveries

/-!
# Agreement of the device client with the gateway

The two codecs were written apart.  The gateway reads every CONNECT, SUBSCRIBE and PUBLISH
packet that the client writes, except for texts with control characters, a maximum packet size
of zero and shared subscriptions.  The client reads every PUBLISH packet of QoS 0 or 1 that the
gateway writes within the limits of the client, and drops its retain flag.
-/

namespace Netbaiot.Broker

open Lib Mqtt Client

/-- A PUBLISH packet within the limits of the client: it takes QoS 0 and 1 and topics of at most
eight levels. -/
structure DeliveryWithin (limits : Client.Limits) (topic : Text) (payload : List UInt8) (qos : ℕ) :
    Prop where
  bytes : topic.length ≤ limits.topic
  depth : (levels topic).length ≤ 8
  payload : payload.length ≤ limits.payload
  qos : qos ≤ 1

theorem delivery_decoded311 {limits : Limits} {client : Client.Limits} {topic : Text}
    {payload frame : List UInt8} {qos : ℕ} {packetId : Option ℕ} {retain dup : Bool}
    (h : V311.publish topic payload qos packetId retain dup limits = .ok frame)
    (hlimit : frame.length ≤ client.packet) (hwithin : DeliveryWithin client topic payload qos)
    (hid : PacketIdFor qos packetId) (rest : List UInt8) :
    Client.decode .v311 client (frame ++ rest) =
      .ok (some (.publish topic payload (UInt8.ofNat qos) packetId dup {}, rest)) := by
  obtain ⟨_, htopic, hshort, hencode⟩ := V311.publish_eq_ok h
  have hproperties : Parser.Reads (versionProperties .v311 .publish client) [] {} :=
    Parser.reads_pure _
  have hparse : (decodeBody .v311 client (publishFlags qos retain dup)).parse
      (beBytes 2 topic.length ++ topic ++ packetIdBytes packetId ++ [] ++ payload) = _ :=
    parse_publish hwithin.qos
      (validTopic_within htopic hwithin.bytes hwithin.depth) hshort hid hproperties rfl
      hwithin.payload
  rw [List.append_nil] at hparse
  exact decodeFrame_of_parse (takeFrame_encode hencode hlimit rest) hparse

theorem delivery_decoded5 {limits : Limits} {client : Client.Limits} (packet : V5.OutboundPublish)
    {maximum : ℕ} {frame : List UInt8} (h : V5.publish packet maximum = .ok frame)
    (htopic : validTopic packet.topic limits false)
    (hp : packet.properties.Short → packet.properties.Admitted limits)
    (hlimit : frame.length ≤ client.packet)
    (hwithin : DeliveryWithin client packet.topic packet.payload packet.qos)
    (hfits : Client.Fits client packet.properties)
    (hid : PacketIdFor packet.qos packet.packetId) (rest : List UInt8) :
    Client.decode .v5 client (frame ++ rest) =
      .ok (some (.publish packet.topic packet.payload (UInt8.ofNat packet.qos) packet.packetId
        packet.dup { messageExpiry := packet.properties.messageExpiry }, rest)) := by
  obtain ⟨_, hshort, encoded, hencoded, hencode⟩ := V5.publish_eq_ok h
  obtain ⟨_, hbody, _⟩ := encode_eq_ok hencode
  have hstrings := V5.putProperties_short hencoded
  obtain ⟨encoded', hencoded', hlength⟩ := V5.putProperties_ok hstrings
  cases hencoded.symm.trans hencoded'
  have hsmall : encoded.length ≤ 268435455 := by
    simp only [List.length_append] at hbody
    omega
  have hproperties : Parser.Reads (versionProperties .v5 .publish client)
      (variableInteger encoded.length ++ encoded)
      { messageExpiry := packet.properties.messageExpiry } :=
    reads_properties (hp hstrings) hfits hencoded (hlength ▸ hfits.bytes) hsmall
  exact decodeFrame_of_parse (takeFrame_encode hencode hlimit rest) (parse_publish hwithin.qos
    (validTopic_within htopic hwithin.bytes hwithin.depth) hshort hid hproperties rfl
    hwithin.payload)

/-- The gateway decodes what the client encodes, and the client decodes the PUBLISH packets that
the gateway encodes. -/
theorem client_gateway_agree (limits : Limits) (client : Client.Limits) (maximum : ℕ)
    (frame rest : List UInt8) :
    (frame.length ≤ limits.maxMqttPacketSize →
      (∀ value : Client.Connect, Client.connect value maximum = .ok frame → value.Within limits →
        value.Textual →
        (value.version = .v311 →
          V311.decode limits (frame ++ rest) = .ok (some (.connect value.received311, rest))) ∧
        (value.version = .v5 → value.maximumPacketSize ≠ 0 →
          V5.decode limits (frame ++ rest) = .ok (some (.connect value.received5, rest)))) ∧
      (∀ (id : UInt16) (topic : Text), Client.TopicWithin topic limits →
        0 < limits.maxSubscriptionFiltersPerPacket →
        (Client.subscribe .v311 id topic maximum = .ok frame →
          V311.decode limits (frame ++ rest) =
            .ok (some (.subscribe id.toNat [(topic, 1)], rest))) ∧
        (Client.subscribe .v5 id topic maximum = .ok frame →
          ¬ (ascii "$share/").isPrefixOf topic →
          V5.decode limits (frame ++ rest) = .ok (some
            (.subscribe id.toNat [(topic, Client.subscriptionOptions)] {}, rest)))) ∧
      ∀ (topic : Text) (payload : List UInt8) (qos : ℕ) (id : Option UInt16) (dup : Bool)
        (expiry : Option UInt32), Client.TopicWithin topic limits →
        (Client.publish .v311 topic payload qos id dup expiry maximum = .ok frame →
          V311.decode limits (frame ++ rest) = .ok (some (.publish topic payload (UInt8.ofNat qos)
            (id.map UInt16.toNat) false dup, rest))) ∧
        (Client.publish .v5 topic payload qos id dup expiry maximum = .ok frame →
          (expiry.isSome → 5 ≤ limits.maxMqttPropertyBytes) →
          V5.decode limits (frame ++ rest) = .ok (some (.publish topic payload (UInt8.ofNat qos)
            (id.map UInt16.toNat) false dup (Client.receivedExpiry expiry), rest)))) ∧
    (frame.length ≤ client.packet →
      ∀ (topic : Text) (payload : List UInt8) (qos : ℕ) (packetId : Option ℕ) (retain dup : Bool),
        DeliveryWithin client topic payload qos → PacketIdFor qos packetId →
        (V311.publish topic payload qos packetId retain dup limits = .ok frame →
          Client.decode .v311 client (frame ++ rest) =
            .ok (some (.publish topic payload (UInt8.ofNat qos) packetId dup {}, rest))) ∧
        ∀ (properties : PublishProperties) (clock : Option ℕ), validTopic topic limits false →
          properties.valid limits → Client.Fits client (properties.toWire clock) →
          V5.publish { topic, payload, qos, packetId, retain, dup,
                       properties := properties.toWire clock } maximum = .ok frame →
          Client.decode .v5 client (frame ++ rest) =
            .ok (some (.publish topic payload (UInt8.ofNat qos) packetId dup
              { messageExpiry := (properties.toWire clock).messageExpiry }, rest))) := by
  refine ⟨fun hlimit => ⟨?_, ?_, ?_⟩, fun hlimit => ?_⟩
  · intro value hframe hwithin htext
    exact ⟨fun hversion => connect_decoded311 hframe hversion hlimit hwithin htext rest,
      fun hversion hmaximum =>
        connect_decoded5 hframe hversion hlimit hwithin htext hmaximum rest⟩
  · intro id topic hwithin hfilters
    exact ⟨fun hframe => subscribe_decoded311 hframe hlimit hwithin hfilters rest,
      fun hframe hshared => subscribe_decoded5 hframe hlimit hwithin hfilters hshared rest⟩
  · intro topic payload qos id dup expiry hwithin
    exact ⟨fun hframe => publish_decoded311 hframe hlimit hwithin rest,
      fun hframe hproperties => publish_decoded5 hframe hlimit hwithin hproperties rest⟩
  · intro topic payload qos packetId retain dup hwithin hid
    refine ⟨fun hframe => delivery_decoded311 hframe hlimit hwithin hid rest, ?_⟩
    intro properties clock htopic hvalid hfits hframe
    exact delivery_decoded5 { topic, payload, qos, packetId, retain, dup,
                              properties := properties.toWire clock }
      hframe htopic (PublishProperties.valid_spec hvalid).admitted hlimit hwithin hfits hid rest

/-- A client of MQTT 5 with a client identifier of one character. -/
def smallConnect (character : UInt8) (maximumPacketSize : UInt32) : Client.Connect where
  version := .v5
  clientId := [character]
  username := ascii "u"
  password := ascii "p"
  keepAlive := 15
  cleanStart := true
  sessionExpiry := 60
  receiveMaximum := 16
  maximumPacketSize := maximumPacketSize

/-- The frame of a small CONNECT packet. -/
def smallConnectFrame (character : UInt8) (maximumPacketSize : List UInt8) : List UInt8 :=
  [0x10, 0x24, 0, 4, 77, 81, 84, 84, 5, 0xc2, 0, 15, 16, 0x11, 0, 0, 0, 60, 0x21, 0, 16, 0x27] ++
    maximumPacketSize ++ [0x22, 0, 0, 0, 1, character, 0, 1, 117, 0, 1, 112]

theorem client_gateway_agree_small :
    V5.decode Limits.default (smallConnectFrame 99 [0, 1, 0, 0]) =
      .ok (some (.connect (smallConnect 99 65536).received5, [])) ∧
    Client.decode .v5 Client.Limits.default [0x33, 9, 0, 1, 97, 0, 7, 2, 0x01, 1, 104] =
      .ok (some (.publish (ascii "a") (ascii "h") 1 (some 7) false {}, [])) := by
  constructor
  · exact ((client_gateway_agree Limits.default Client.Limits.default 100
      (smallConnectFrame 99 [0, 1, 0, 0]) []).1 (by decide)).1 (smallConnect 99 65536)
      (by decide +kernel) ⟨by decide, by decide, by decide, fun _ => by decide⟩
      ⟨by decide, by decide⟩ |>.2 rfl (by decide)
  · exact (((client_gateway_agree Limits.default Client.Limits.default 100
      [0x33, 9, 0, 1, 97, 0, 7, 2, 0x01, 1, 104] []).2 (by decide)) (ascii "a") (ascii "h") 1
      (some 7)
      true false ⟨by decide, by decide +kernel, by decide, by decide⟩
      ⟨by decide, by rintro _ ⟨⟩; decide, by rintro _ ⟨⟩; decide⟩).2
      { payloadFormat := some 1 } none
      (by decide +kernel) (by decide +kernel) ⟨by decide, by decide, by rintro _ ⟨⟩⟩
      (by decide +kernel)

/-- Packets on which the codecs disagree: a client identifier with a control character, a maximum
packet size of zero and a shared subscription are encoded by the client and refused by the
gateway; a PUBLISH packet of QoS 2 is encoded by the gateway and refused by the client, which also
decodes a retained message as one that is not. -/
theorem client_gateway_disagree :
    (Client.connect (smallConnect 1 65536) 100 = .ok (smallConnectFrame 1 [0, 1, 0, 0]) ∧
      V5.decode Limits.default (smallConnectFrame 1 [0, 1, 0, 0]) = .error V5.malformed) ∧
    (Client.connect (smallConnect 99 0) 100 = .ok (smallConnectFrame 99 [0, 0, 0, 0]) ∧
      V5.decode Limits.default (smallConnectFrame 99 [0, 0, 0, 0]) = .error V5.protocol) ∧
    (Client.subscribe .v5 1 (ascii "$share/g") 100 =
        .ok ([0x82, 14, 0, 1, 0, 0, 8] ++ ascii "$share/g" ++ [1]) ∧
      V5.decode Limits.default ([0x82, 14, 0, 1, 0, 0, 8] ++ ascii "$share/g" ++ [1]) =
        .error V5.sharedSubscriptionsNotSupported) ∧
    (V311.publish (ascii "a") [] 2 (some 1) false false Limits.default =
        .ok [0x34, 5, 0, 1, 97, 0, 1] ∧
      Client.decode .v311 Client.Limits.default [0x34, 5, 0, 1, 97, 0, 1] = .error .invalid) ∧
    (V311.publish (ascii "a") [] 0 none true false Limits.default = .ok [0x31, 3, 0, 1, 97] ∧
      V311.publish (ascii "a") [] 0 none false false Limits.default = .ok [0x30, 3, 0, 1, 97] ∧
      Client.decode .v311 Client.Limits.default [0x31, 3, 0, 1, 97] =
        Client.decode .v311 Client.Limits.default [0x30, 3, 0, 1, 97]) := by
  decide +kernel

end Netbaiot.Broker
