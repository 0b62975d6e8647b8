import Netbaiot.Mqtt.Topic
import Netbaiot.Mqtt.Wire

/-!
# The MQTT 3.1.1 codec

Packets are decoded from the front of a buffer; a buffer that does not hold a whole packet
yet decodes to nothing.  `publish` encodes an outgoing PUBLISH.
-/

namespace Netbaiot.Mqtt.V311

open Lib Parser

structure Will where
  topic : Text
  payload : List UInt8
  qos : UInt8
  retain : Bool
deriving DecidableEq

structure Connect where
  clientId : Text
  username : Option Text
  password : Option (List UInt8)
  keepAlive : ℕ
  cleanSession : Bool
  will : Option Will
deriving DecidableEq

inductive Packet where
  | connect (connect : Connect)
  | unsupportedVersion (version : UInt8)
  | connack (sessionPresent : Bool) (code : UInt8)
  | publish (topic : Text) (payload : List UInt8) (qos : UInt8) (packetId : Option ℕ)
      (retain dup : Bool)
  | puback (packetId : ℕ)
  | pubrec (packetId : ℕ)
  | pubrel (packetId : ℕ)
  | pubcomp (packetId : ℕ)
  | subscribe (packetId : ℕ) (filters : List (Text × UInt8))
  | suback (packetId : ℕ) (returns : List UInt8)
  | unsubscribe (packetId : ℕ) (filters : List Text)
  | unsuback (packetId : ℕ)
  | pingreq
  | pingresp
  | disconnect
deriving DecidableEq

/-! ## Cursor -/

abbrev Cursor := Parser Error

namespace Cursor

abbrev byte : Cursor UInt8 := Parser.byte .invalid

abbrev short : Cursor ℕ := number 2 .invalid

abbrev binary (maximum : ℕ) : Cursor (List UInt8) := counted 2 maximum .invalid .invalid .invalid

abbrev string (maximum : ℕ) : Cursor Text := checked (binary maximum) (validUtf8 ·) .invalid

abbrev id : Cursor ℕ := checked short (· ≠ 0) .invalid

def done : Cursor Unit := do
  ensure ((← remaining).isEmpty) .invalid

end Cursor

/-! ## Decoding -/

/-- A packet that holds a packet identifier only. -/
def decodeId : Cursor ℕ := do
  let id ← Cursor.id
  Cursor.done
  return id

variable (limits : Limits)

/-- The Will of a CONNECT packet. -/
def decodeWill (flags : UInt8) : Cursor Will := do
  let topic ← Cursor.string limits.maxTopicBytes
  ensure (validTopic topic limits false) .invalid
  let payload ← Cursor.binary limits.maxWillPayloadBytes
  return { topic, payload, qos := (flags >>> 3) &&& 3, retain := flags &&& 0x20 != 0 }

/-- What follows the protocol version of a CONNECT packet. -/
def decodeConnectFields : Cursor Packet := do
  let flags ← Cursor.byte
  let keepAlive ← Cursor.short
  let hasWill := flags &&& 4 ≠ 0
  let willQos := (flags >>> 3) &&& 3
  ensure (¬ (flags &&& 1 ≠ 0 ∨ willQos = 3 ∨ (¬ hasWill ∧ flags &&& 0x38 ≠ 0) ∨
    (flags &&& 0x40 ≠ 0 ∧ flags &&& 0x80 = 0))) .invalid
  let clientId ← Cursor.string limits.maxClientIdBytes
  let will ← present hasWill (decodeWill limits flags)
  let username ← present (flags &&& 0x80 ≠ 0) (Cursor.string limits.maxUsernameBytes)
  let password ← present (flags &&& 0x40 ≠ 0) (Cursor.binary limits.maxPasswordBytes)
  Cursor.done
  return .connect
    { clientId, username, password, keepAlive, cleanSession := flags &&& 2 != 0, will }

def decodeConnect : Cursor Packet := do
  let name ← Cursor.string 6
  ensure (name = ascii "MQTT") .invalid
  let version ← Cursor.byte
  if version ≠ 4 then return .unsupportedVersion version else decodeConnectFields limits

def decodeConnack : Cursor Packet := do
  let flags ← Cursor.byte
  let code ← Cursor.byte
  Cursor.done
  ensure (¬ (flags &&& 0xfe ≠ 0 ∨ code > 5 ∨ (code ≠ 0 ∧ flags &&& 1 ≠ 0))) .invalid
  return .connack (flags &&& 1 != 0) code

def decodePublish (first : UInt8) : Cursor Packet := do
  let qos := (first >>> 1) &&& 3
  let topic ← Cursor.string limits.maxTopicBytes
  ensure (validTopic topic limits false) .invalid
  let packetId ← present (qos > 0) Cursor.id
  let payload ← remaining
  return .publish topic payload qos packetId (first &&& 1 != 0) (first &&& 8 != 0)

/-- One filter of a SUBSCRIBE packet. -/
def decodeSubscription (filters : List (Text × UInt8)) : Cursor (List (Text × UInt8)) := do
  ensure (¬ filters.length ≥ limits.maxSubscriptionFiltersPerPacket) .overloaded
  let filter ← Cursor.string limits.maxTopicBytes
  let qos ← Cursor.byte
  ensure (¬ (qos > 2 ∨ ¬ validTopic filter limits true)) .invalid
  return filters ++ [(filter, qos)]

def decodeSubscribe : Cursor Packet := do
  let packetId ← Cursor.id
  let filters ← untilEmpty (decodeSubscription limits) []
  ensure (filters ≠ []) .invalid
  return .subscribe packetId filters

def decodeSuback : Cursor Packet := do
  let packetId ← Cursor.id
  let returns ← remaining
  ensure (¬ (returns = [] ∨ ∃ code ∈ returns, code ∉ ([0, 1, 2, 0x80] : List UInt8))) .invalid
  return .suback packetId returns

/-- One filter of an UNSUBSCRIBE packet. -/
def decodeUnsubscription (filters : List Text) : Cursor (List Text) := do
  ensure (¬ filters.length ≥ limits.maxSubscriptionFiltersPerPacket) .overloaded
  let filter ← Cursor.string limits.maxTopicBytes
  ensure (validTopic filter limits true) .invalid
  return filters ++ [filter]

def decodeUnsubscribe : Cursor Packet := do
  let packetId ← Cursor.id
  let filters ← untilEmpty (decodeUnsubscription limits) []
  ensure (filters ≠ []) .invalid
  return .unsubscribe packetId filters

/-- What follows the fixed header of a packet. -/
def decodeBody (first : UInt8) : Cursor Packet :=
  match first >>> 4 with
  | 1 => decodeConnect limits
  | 2 => decodeConnack
  | 3 => decodePublish limits first
  | 4 => .puback <$> decodeId
  | 5 => .pubrec <$> decodeId
  | 6 => .pubrel <$> decodeId
  | 7 => .pubcomp <$> decodeId
  | 8 => decodeSubscribe limits
  | 9 => decodeSuback
  | 10 => decodeUnsubscribe limits
  | 11 => .unsuback <$> decodeId
  | 12 => do
      Cursor.done
      return .pingreq
  | 13 => do
      Cursor.done
      return .pingresp
  | 14 => do
      Cursor.done
      return .disconnect
  | _ => throw .invalid

/-- Take the first packet out of a buffer, if it is complete. -/
def decode (input : List UInt8) : Except Error (Option (Packet × List UInt8)) := do
  match ← (takeFrame input limits.maxMqttPacketSize).mapError adapt with
  | none => return none
  | some (first, body, rest) =>
      let (packet, _) ← (decodeBody limits first).parse body
      return some (packet, rest)

/-! ## Encoding -/

def publish (topic : Text) (payload : List UInt8) (qos : ℕ) (packetId : Option ℕ)
    (retain dup : Bool) (limits : Limits) : Except Error (List UInt8) := do
  check (¬ (qos > 2 ∨ ¬ validTopic topic limits false ∨ packetId = some 0 ∨
    ¬ (qos = 0 ↔ packetId.isNone) ∨ (qos = 0 ∧ dup))) .invalid
  check (topic.length < 2 ^ 16) .invalid
  let size := topic.length + payload.length + if packetId.isSome then 4 else 2
  check (¬ (← (encodedSize size).mapError adapt) > limits.maxMqttPacketSize) .overloaded
  let body := beBytes 2 topic.length ++ topic ++ packetIdBytes packetId ++ payload
  (encode (publishFlags qos retain dup) body limits.maxMqttPacketSize).mapError adapt

end Netbaiot.Mqtt.V311
