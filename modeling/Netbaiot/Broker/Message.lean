import Netbaiot.Mqtt.Topic

/-!
# Broker messages

Messages with their MQTT 5 properties, and the bytes each is charged for while the
broker owns it.  The charge does not depend on the delivery QoS or the retain flag.
-/

namespace Netbaiot.Broker

open Lib Mqtt

/-- The fixed charge of a stored entry. -/
def stateOverhead : ℕ := 64

def hotMaintenanceBudget : ℕ := 64

def tickMaintenanceBudget : ℕ := 1024

/-- A session belongs to a client identifier of a device. -/
structure SessionKey where
  device : DeviceKey
  clientId : Text
deriving DecidableEq

/-- The bytes of the names in a session key. -/
def SessionKey.bytes (key : SessionKey) : ℕ :=
  key.clientId.length + key.device.tenantId.asStr.length + key.device.productId.asStr.length +
    key.device.deviceId.asStr.length

/-- The options of one subscription. -/
structure Subscription where
  qos : ℕ
  noLocal : Bool
  retainAsPublished : Bool
  /-- 0: replay always; 1: only for a new subscription; 2: never replay. -/
  retainHandling : ℕ
deriving DecidableEq

def Subscription.v311 (qos : ℕ) : Subscription :=
  { qos, noLocal := false, retainAsPublished := false, retainHandling := 0 }

/-- The MQTT 5 properties of a publish. -/
structure PublishProperties where
  payloadFormat : Option UInt8 := none
  expiresAtMs : Option Int64 := none
  contentType : Option Text := none
  responseTopic : Option Text := none
  correlationData : Option (List UInt8) := none
  userProperties : List (Text × Text) := []
deriving DecidableEq

namespace PublishProperties

/-- The charge of the properties; the empty ones are free. -/
def bytes (p : PublishProperties) : ℕ :=
  if p = {} then 0
  else
    128 + (p.contentType.map List.length).getD 0 + (p.responseTopic.map List.length).getD 0 +
      (p.correlationData.map List.length).getD 0 +
      (p.userProperties.map fun (key, value) => key.length + value.length + 64).sum

/-- The wire bytes of the user properties. -/
def userBytes (p : PublishProperties) : ℕ :=
  (p.userProperties.map fun (key, value) => key.length + value.length + 5).sum

/-- The wire bytes of all properties. -/
def wireBytes (p : PublishProperties) : ℕ :=
  p.userBytes + (p.payloadFormat.map fun _ => 2).getD 0 + (p.expiresAtMs.map fun _ => 5).getD 0 +
    (p.contentType.map fun value => value.length + 3).getD 0 +
    (p.responseTopic.map fun value => value.length + 3).getD 0 +
    (p.correlationData.map fun value => value.length + 3).getD 0

/-- Every property is well formed and within its own limit, and so is their sum. -/
def valid (p : PublishProperties) (limits : Limits) : Bool :=
  p.payloadFormat.all (fun value => value ≤ 1) &&
    p.expiresAtMs.all (fun value => 0 ≤ value) &&
    p.contentType.all (fun value =>
      value.length ≤ limits.maxMqttContentTypeBytes && validUtf8 value) &&
    p.responseTopic.all (fun value =>
      value.length ≤ limits.maxMqttResponseTopicBytes && validTopic value limits false) &&
    p.correlationData.all (fun value => value.length ≤ limits.maxMqttCorrelationDataBytes) &&
    p.userProperties.length ≤ limits.maxMqttUserProperties &&
    p.userProperties.all (fun (key, value) => validUtf8 key && validUtf8 value) &&
    p.userBytes ≤ limits.maxMqttUserPropertyBytes &&
    p.wireBytes ≤ limits.maxMqttPropertyBytes

end PublishProperties

/-- A message the broker routes, queues, retains or publishes for a Will. -/
structure BrokerMessage where
  topic : Text
  payload : List UInt8
  qos : ℕ
  retain : Bool
  properties : PublishProperties := {}
deriving DecidableEq

variable (m : BrokerMessage)

namespace BrokerMessage

/-- The bytes a stored copy of the message is charged for. -/
def bytes (m : BrokerMessage) : ℕ :=
  m.topic.length + m.payload.length + stateOverhead + m.properties.bytes

/-- The message has a deadline and it has passed. -/
def expired (now : Int64) : Bool := m.properties.expiresAtMs.any (· ≤ now)

/-- The message with another deadline. -/
def expireAt (deadline : Int64) : BrokerMessage :=
  { m with properties := { m.properties with expiresAtMs := some deadline } }

/-- The message with nothing but its topic and flags. -/
def cleared : BrokerMessage := { m with payload := [], properties := {} }

/-- The copy of a message for one delivery. -/
def routedTo (qos : ℕ) (retain : Bool) : BrokerMessage := { m with qos, retain }

end BrokerMessage

/-- The message test at the boundary of the broker. -/
def validBrokerMessage (message : BrokerMessage) (limits : Limits) : Bool :=
  message.qos ≤ 2 && message.payload.length ≤ limits.maxMqttPacketSize &&
    validTopic message.topic limits false && message.properties.valid limits &&
    (message.properties.payloadFormat != some 1 || (fromUtf8 message.payload).isSome)

/-- The charge of a retained message, with the names of the session that published it. -/
def retainedCharge (message : BrokerMessage) (origin : Option SessionKey) : ℕ :=
  message.bytes + (origin.map fun key => key.bytes + stateOverhead).getD 0

/-- The charge of a Will, with the client identifier of the session that left it. -/
def willCharge (message : BrokerMessage) (origin : Option SessionKey) : ℕ :=
  message.bytes + (origin.map fun key => key.clientId.length + 2).getD 0

end Netbaiot.Broker
