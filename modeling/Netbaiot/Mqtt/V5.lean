import Netbaiot.Mqtt.Topic
import Netbaiot.Mqtt.Wire

/-!
# The MQTT 5 codec

Packets carry a field of properties, each with a one-byte identifier.  Which properties a
packet may have depends on its context; all but user properties occur at most once, and
each has its own byte limit next to the limit for the whole field.
-/

namespace Netbaiot.Mqtt.V5

open Lib Parser

/-- Why a packet is refused, as an MQTT 5 reason code. -/
structure DecodeError where
  reason : UInt8
deriving DecidableEq

def malformed : DecodeError := ⟨0x81⟩
def protocol : DecodeError := ⟨0x82⟩
def tooLarge : DecodeError := ⟨0x95⟩
def topicAliasInvalid : DecodeError := ⟨0x94⟩
def topicNameInvalid : DecodeError := ⟨0x90⟩
def topicFilterInvalid : DecodeError := ⟨0x8f⟩
def subscriptionIdentifiersNotSupported : DecodeError := ⟨0xa1⟩
def sharedSubscriptionsNotSupported : DecodeError := ⟨0x9e⟩

structure Properties where
  payloadFormat : Option UInt8 := none
  messageExpiry : Option ℕ := none
  contentType : Option Text := none
  responseTopic : Option Text := none
  correlationData : Option (List UInt8) := none
  sessionExpiry : Option ℕ := none
  receiveMaximum : Option ℕ := none
  maximumPacketSize : Option ℕ := none
  topicAliasMaximum : Option ℕ := none
  requestResponseInformation : Option Bool := none
  requestProblemInformation : Option Bool := none
  authenticationMethod : Option Text := none
  authenticationData : Option (List UInt8) := none
  willDelay : Option ℕ := none
  userProperties : List (Text × Text) := []
deriving DecidableEq

inductive PropertyContext where
  | connect
  | will
  | publish
  | subscribe
  | unsubscribe
  | disconnect
  | ack
deriving DecidableEq

/-! ## Cursor -/

abbrev Cursor := Parser DecodeError

namespace Cursor

abbrev byte : Cursor UInt8 := Parser.byte malformed

abbrev short : Cursor ℕ := number 2 malformed

abbrev integer : Cursor ℕ := number 4 malformed

abbrev binary (maximum : ℕ) : Cursor (List UInt8) := counted 2 maximum malformed tooLarge malformed

abbrev string (maximum : ℕ) : Cursor Text := checked (binary maximum) (validUtf8 ·) malformed

abbrev id : Cursor ℕ := checked short (· ≠ 0) protocol

/-- A variable byte integer. -/
abbrev variableInteger : ℕ → Cursor ℕ :=
  takeVariableInteger malformed fun
    | .tooLarge => tooLarge
    | .invalid => malformed

def done : Cursor Unit := do
  ensure ((← remaining).isEmpty) malformed

/-- Read a part that may be left out at the end of a packet. -/
def unlessDone {α : Type} (absent : α) (p : Cursor α) : Cursor α := do
  if (← remaining).isEmpty then pure absent else p

end Cursor

/-! ## Properties -/

/-- Whether a property may occur in a context. -/
def propertyAllowed (context : PropertyContext) (id : UInt8) : Except DecodeError Bool :=
  match id with
  | 0x01 | 0x02 | 0x03 | 0x08 | 0x09 => .ok (context = .will ∨ context = .publish)
  | 0x11 => .ok (context = .connect ∨ context = .disconnect)
  | 0x15 | 0x16 | 0x17 | 0x19 | 0x21 | 0x22 | 0x27 => .ok (context = .connect)
  | 0x18 => .ok (context = .will)
  | 0x1f => .ok (context = .ack ∨ context = .disconnect)
  | 0x26 => .ok true
  | 0x23 => .error topicAliasInvalid
  | 0x0b => .error subscriptionIdentifiersNotSupported
  | _ => .error malformed

/-- What has been read of a property field. -/
structure PropertyState where
  result : Properties := {}
  seen : UInt64 := 0
  userBytes : ℕ := 0

variable (limits : Limits)

/-- Read the value of a property. -/
def propertyValue (id : UInt8) (state : PropertyState) : Cursor PropertyState :=
  let result := state.result
  match id with
  | 0x01 => do
      let value ← Cursor.byte
      ensure (¬ value > 1) protocol
      return { state with result := { result with payloadFormat := some value } }
  | 0x02 => do
      let value ← Cursor.integer
      return { state with result := { result with messageExpiry := some value } }
  | 0x03 => do
      let value ← Cursor.string limits.maxMqttContentTypeBytes
      return { state with result := { result with contentType := some value } }
  | 0x08 => do
      let value ← Cursor.string limits.maxMqttResponseTopicBytes
      ensure (validTopic value limits false) protocol
      return { state with result := { result with responseTopic := some value } }
  | 0x09 => do
      let value ← Cursor.binary limits.maxMqttCorrelationDataBytes
      return { state with result := { result with correlationData := some value } }
  | 0x11 => do
      let value ← Cursor.integer
      return { state with result := { result with sessionExpiry := some value } }
  | 0x15 => do
      let value ← Cursor.string limits.maxMqttPropertyBytes
      return { state with result := { result with authenticationMethod := some value } }
  | 0x16 => do
      let value ← Cursor.binary limits.maxMqttPropertyBytes
      return { state with result := { result with authenticationData := some value } }
  | 0x17 => do
      let value ← Cursor.byte
      ensure (¬ value > 1) protocol
      return { state with
        result := { result with requestProblemInformation := some (value != 0) } }
  | 0x19 => do
      let value ← Cursor.byte
      ensure (¬ value > 1) protocol
      return { state with
        result := { result with requestResponseInformation := some (value != 0) } }
  | 0x18 => do
      let value ← Cursor.integer
      return { state with result := { result with willDelay := some value } }
  | 0x1f => do
      let _ ← Cursor.string limits.maxMqttPropertyBytes
      return state
  | 0x21 => do
      let value ← Cursor.short
      ensure (value ≠ 0) protocol
      return { state with result := { result with receiveMaximum := some value } }
  | 0x22 => do
      let value ← Cursor.short
      return { state with result := { result with topicAliasMaximum := some value } }
  | 0x26 => do
      ensure (¬ result.userProperties.length ≥ limits.maxMqttUserProperties) tooLarge
      let key ← Cursor.string limits.maxMqttUserPropertyBytes
      let value ← Cursor.string limits.maxMqttUserPropertyBytes
      let userBytes := state.userBytes + key.length + value.length + 4
      ensure (¬ userBytes > limits.maxMqttUserPropertyBytes) tooLarge
      return { state with
        result := { result with userProperties := result.userProperties ++ [(key, value)] }
        userBytes := userBytes }
  | 0x27 => do
      let value ← Cursor.integer
      ensure (value ≠ 0) protocol
      return { state with result := { result with maximumPacketSize := some value } }
  | _ => throw malformed

/-- Read one property. -/
def property (context : PropertyContext) (limits : Limits) (state : PropertyState) :
    Cursor PropertyState := do
  let id ← Cursor.byte
  ensure (¬ id ≥ 64) malformed
  let bit : UInt64 := 1 <<< id.toUInt64
  ensure (¬ (id ≠ 0x26 ∧ state.seen &&& bit ≠ 0)) protocol
  let state := { state with seen := state.seen ||| bit }
  match propertyAllowed context id with
  | .error e => throw e
  | .ok false => throw malformed
  | .ok true => propertyValue limits id state

/-- Read a property field with its length. -/
def properties (context : PropertyContext) (limits : Limits) : Cursor Properties := do
  let length ← Cursor.variableInteger limits.maxMqttPropertyBytes
  let field ← take length malformed
  let state ← within (untilEmpty (property context limits) {}) field
  let result := state.result
  ensure (¬ (result.authenticationData.isSome ∧ result.authenticationMethod.isNone)) protocol
  return result

/-! ## Packets -/

structure Will where
  topic : Text
  payload : List UInt8
  qos : UInt8
  retain : Bool
  properties : Properties
deriving DecidableEq

structure Connect where
  clientId : Text
  username : Option Text
  password : Option (List UInt8)
  keepAlive : ℕ
  cleanStart : Bool
  properties : Properties
  will : Option Will
deriving DecidableEq

structure SubscriptionOptions where
  qos : UInt8
  noLocal : Bool
  retainAsPublished : Bool
  retainHandling : UInt8
deriving DecidableEq

inductive Packet where
  | connect (connect : Connect)
  | publish (topic : Text) (payload : List UInt8) (qos : UInt8) (packetId : Option ℕ)
      (retain dup : Bool) (properties : Properties)
  | puback (packetId : ℕ) (reason : UInt8)
  | pubrec (packetId : ℕ) (reason : UInt8)
  | pubrel (packetId : ℕ) (reason : UInt8)
  | pubcomp (packetId : ℕ) (reason : UInt8)
  | subscribe (packetId : ℕ) (filters : List (Text × SubscriptionOptions))
      (properties : Properties)
  | unsubscribe (packetId : ℕ) (filters : List Text) (properties : Properties)
  | pingreq
  | disconnect (reason : UInt8) (properties : Properties)
deriving DecidableEq

/-- The Will of a CONNECT packet. -/
def decodeWill (flags : UInt8) : Cursor Will := do
  let properties ← properties .will limits
  let topic ← Cursor.string limits.maxTopicBytes
  ensure (validTopic topic limits false) topicNameInvalid
  let payload ← Cursor.binary limits.maxWillPayloadBytes
  return { topic, payload, qos := (flags >>> 3) &&& 3, retain := flags &&& 0x20 != 0, properties }

def decodeConnect : Cursor Packet := do
  let name ← Cursor.string 6
  ensure (name = ascii "MQTT") protocol
  let version ← Cursor.byte
  ensure (version = 5) protocol
  let flags ← Cursor.byte
  let keepAlive ← Cursor.short
  let hasWill := flags &&& 4 ≠ 0
  let willQos := (flags >>> 3) &&& 3
  ensure (¬ (flags &&& 1 ≠ 0 ∨ willQos = 3 ∨ (¬ hasWill ∧ flags &&& 0x38 ≠ 0))) malformed
  let properties ← properties .connect limits
  let clientId ← Cursor.string limits.maxClientIdBytes
  let will ← present hasWill (decodeWill limits flags)
  let username ← present (flags &&& 0x80 ≠ 0) (Cursor.string limits.maxUsernameBytes)
  let password ← present (flags &&& 0x40 ≠ 0) (Cursor.binary limits.maxPasswordBytes)
  Cursor.done
  return .connect
    { clientId, username, password, keepAlive, cleanStart := flags &&& 2 != 0, properties, will }

def decodePublish (first : UInt8) : Cursor Packet := do
  let qos := (first >>> 1) &&& 3
  ensure (¬ (qos = 0 ∧ first &&& 8 ≠ 0)) protocol
  let topic ← Cursor.string limits.maxTopicBytes
  ensure (validTopic topic limits false) topicNameInvalid
  let packetId ← present (qos ≠ 0) Cursor.id
  let properties ← properties .publish limits
  let payload ← remaining
  return .publish topic payload qos packetId (first &&& 1 != 0) (first &&& 8 != 0) properties

/-- A packet identifier with a reason code, which success may leave out. -/
def ackReason (allowed : List UInt8) : Cursor (ℕ × UInt8) := do
  let id ← Cursor.id
  let reason ← Cursor.unlessDone 0 Cursor.byte
  ensure (reason ∈ allowed) protocol
  let _ ← Cursor.unlessDone {} (properties .ack limits)
  Cursor.done
  return (id, reason)

/-- The reason codes of PUBACK and PUBREC. -/
def publishReasons : List UInt8 := [0, 0x10, 0x80, 0x83, 0x87, 0x90, 0x91, 0x97, 0x99]

/-- The reason codes of PUBREL and PUBCOMP. -/
def releaseReasons : List UInt8 := [0, 0x92]

/-- One filter of a SUBSCRIBE packet. -/
def decodeSubscription (filters : List (Text × SubscriptionOptions)) :
    Cursor (List (Text × SubscriptionOptions)) := do
  ensure (¬ filters.length ≥ limits.maxSubscriptionFiltersPerPacket) tooLarge
  let filter ← Cursor.string limits.maxTopicBytes
  ensure (¬ (ascii "$share/").isPrefixOf filter) sharedSubscriptionsNotSupported
  ensure (validTopic filter limits true) topicFilterInvalid
  let options ← Cursor.byte
  ensure (¬ (options &&& 0xc0 ≠ 0 ∨ options &&& 3 > 2 ∨ (options >>> 4) &&& 3 > 2)) protocol
  return filters ++ [(filter,
    { qos := options &&& 3
      noLocal := options &&& 4 != 0
      retainAsPublished := options &&& 8 != 0
      retainHandling := (options >>> 4) &&& 3 })]

def decodeSubscribe : Cursor Packet := do
  let packetId ← Cursor.id
  let properties ← properties .subscribe limits
  let filters ← untilEmpty (decodeSubscription limits) []
  ensure (filters ≠ []) protocol
  return .subscribe packetId filters properties

/-- One filter of an UNSUBSCRIBE packet. -/
def decodeUnsubscription (filters : List Text) : Cursor (List Text) := do
  ensure (¬ filters.length ≥ limits.maxSubscriptionFiltersPerPacket) tooLarge
  let filter ← Cursor.string limits.maxTopicBytes
  ensure (validTopic filter limits true) topicFilterInvalid
  return filters ++ [filter]

def decodeUnsubscribe : Cursor Packet := do
  let packetId ← Cursor.id
  let properties ← properties .unsubscribe limits
  let filters ← untilEmpty (decodeUnsubscription limits) []
  ensure (filters ≠ []) protocol
  return .unsubscribe packetId filters properties

/-- The reason codes of DISCONNECT. -/
def disconnectReasons : List UInt8 :=
  [0, 4, 0x80, 0x81, 0x82, 0x83, 0x87, 0x89, 0x8b, 0x8d, 0x8e, 0x8f, 0x90, 0x93, 0x94, 0x95, 0x96,
    0x97, 0x98, 0x99, 0x9a, 0x9b, 0x9c, 0x9d, 0x9e, 0x9f, 0xa0, 0xa1, 0xa2]

def decodeDisconnect : Cursor Packet := do
  let reason ← Cursor.unlessDone 0 Cursor.byte
  ensure (reason ∈ disconnectReasons) protocol
  let properties ← Cursor.unlessDone {} (properties .disconnect limits)
  Cursor.done
  return .disconnect reason properties

/-- What follows the fixed header of a packet. -/
def decodeBody (first : UInt8) : Cursor Packet :=
  match first >>> 4 with
  | 1 => decodeConnect limits
  | 3 => decodePublish limits first
  | 4 => (fun (id, reason) => .puback id reason) <$> ackReason limits publishReasons
  | 5 => (fun (id, reason) => .pubrec id reason) <$> ackReason limits publishReasons
  | 6 => (fun (id, reason) => .pubrel id reason) <$> ackReason limits releaseReasons
  | 7 => (fun (id, reason) => .pubcomp id reason) <$> ackReason limits releaseReasons
  | 8 => decodeSubscribe limits
  | 10 => decodeUnsubscribe limits
  | 12 => do
      Cursor.done
      return .pingreq
  | 14 => decodeDisconnect limits
  | _ => throw protocol

/-- The reason code of a fixed header that is refused. -/
def headerError : WireError → DecodeError
  | .tooLarge => tooLarge
  | .invalid => malformed

/-- Take the first packet out of a buffer, if it is complete. -/
def decode (input : List UInt8) : Except DecodeError (Option (Packet × List UInt8)) := do
  match ← (takeFrame input limits.maxMqttPacketSize).mapError headerError with
  | none => return none
  | some (first, body, rest) =>
      let (packet, _) ← (decodeBody limits first).parse body
      return some (packet, rest)

/-! ## Encoding -/

/-- A byte string with its length. -/
def putBinary : List UInt8 → Except Error (List UInt8) := putCounted .overloaded

/-- A text with its length. -/
def putString (value : Text) : Except Error (List UInt8) := putBinary value

structure OutboundPublish where
  topic : Text
  payload : List UInt8
  qos : ℕ
  packetId : Option ℕ
  retain : Bool
  dup : Bool
  properties : Properties

/-- An optional property with its identifier. -/
def putOptional {α : Type} (id : UInt8) (put : α → Except Error (List UInt8)) :
    Option α → Except Error (List UInt8)
  | none => .ok []
  | some value => do return id :: (← put value)

/-- The user properties. -/
def putUserProperties : List (Text × Text) → Except Error (List UInt8)
  | [] => .ok []
  | (key, value) :: rest => do
      let pair := (← putString key) ++ (← putString value)
      return 0x26 :: pair ++ (← putUserProperties rest)

/-- The properties of a PUBLISH packet. -/
def putProperties (properties : Properties) : Except Error (List UInt8) := do
  let payloadFormat ← putOptional 0x01 (fun value => .ok [value]) properties.payloadFormat
  let messageExpiry ← putOptional 0x02 (fun value => .ok (beBytes 4 value)) properties.messageExpiry
  let contentType ← putOptional 0x03 putString properties.contentType
  let responseTopic ← putOptional 0x08 putString properties.responseTopic
  let correlationData ← putOptional 0x09 putBinary properties.correlationData
  let userProperties ← putUserProperties properties.userProperties
  return payloadFormat ++ messageExpiry ++ contentType ++ responseTopic ++ correlationData ++
    userProperties

def publish (packet : OutboundPublish) (maximum : ℕ) : Except Error (List UInt8) := do
  check (¬ (packet.qos > 2 ∨ (packet.qos > 0 ∧ packet.packetId.isNone))) .invalid
  let topic ← putString packet.topic
  let encoded ← putProperties packet.properties
  let body := topic ++ packetIdBytes packet.packetId ++ variableInteger encoded.length ++ encoded ++
    packet.payload
  (encode (publishFlags packet.qos packet.retain packet.dup) body maximum).mapError adapt

end Netbaiot.Mqtt.V5
