import Netbaiot.Mqtt.Topic
import Netbaiot.Mqtt.Wire

/-!
# The MQTT codec of the device client

The device side of both protocol versions.  It encodes CONNECT, SUBSCRIBE and PUBLISH and
decodes only packets that a server may send; it subscribes with QoS 1, so a PUBLISH with QoS 2
is refused.
-/

namespace Netbaiot.Mqtt.Client

open Lib Parser

inductive Version where
  | v311
  | v5
deriving DecidableEq

structure Limits where
  packet : ℕ
  payload : ℕ
  topic : ℕ
  properties : ℕ
  propertyCount : ℕ

def Limits.default : Limits where
  packet := 131072
  payload := 65536
  topic := 256
  properties := 4096
  propertyCount := 32

structure Properties where
  sessionExpiry : Option ℕ := none
  messageExpiry : Option ℕ := none
  receiveMaximum : Option ℕ := none
  maximumPacketSize : Option ℕ := none
  serverKeepAlive : Option ℕ := none
  maximumQos : Option UInt8 := none
  topicAlias : Option ℕ := none
deriving DecidableEq

inductive Packet where
  | connack (sessionPresent : Bool) (reason : UInt8) (properties : Properties)
  | suback (packetId : ℕ) (reasons : List UInt8)
  | publish (topic : Text) (payload : List UInt8) (qos : UInt8) (packetId : Option ℕ) (dup : Bool)
      (properties : Properties)
  | puback (packetId : ℕ) (reason : UInt8)
  | pingresp
  | disconnect (reason : UInt8)
deriving DecidableEq

/-- The topic test of the wire codec with its limits as numbers. -/
def validTopic (topic : Text) (maxBytes maxDepth : ℕ) (filter : Bool) : Bool :=
  !topic.isEmpty && topic.length ≤ maxBytes && (levels topic).length ≤ maxDepth &&
    validUtf8 topic &&
      if filter then validFilter topic else !(topic.contains 43 || topic.contains 35)

/-! ## Reader -/

abbrev Reader := Parser WireError

namespace Reader

abbrev byte : Reader UInt8 := Parser.byte .invalid

abbrev short : Reader ℕ := number 2 .invalid

abbrev integer : Reader ℕ := number 4 .invalid

abbrev id : Reader ℕ := checked short (· ≠ 0) .invalid

abbrev binary (limit : ℕ) : Reader (List UInt8) := counted 2 limit .invalid .tooLarge .invalid

abbrev string (limit : ℕ) : Reader Text := checked (binary limit) (validUtf8 ·) .invalid

/-- A variable byte integer. -/
abbrev variableInteger : ℕ → Reader ℕ := takeVariableInteger .invalid fun e => e

def done : Reader Unit := do
  ensure ((← remaining).isEmpty) .invalid

end Reader

/-! ## Properties -/

inductive Context where
  | connack
  | publish
  | puback
  | suback
  | disconnect
deriving DecidableEq

/-- A byte that is a truth value. -/
def flag : Reader UInt8 := do
  let value ← Reader.byte
  ensure (¬ value > 1) .invalid
  return value

/-- A number that must not be zero. -/
def nonzero (number : Reader ℕ) : Reader ℕ := do
  let value ← number
  ensure (value ≠ 0) .invalid
  return value

/-- Read the value of a property; most of them are checked and dropped. -/
def propertyValue (context : Context) (limits : Limits) (id : UInt8) (out : Properties) :
    Reader Properties :=
  match id, context with
  | 0x01, .publish => do
      let _ ← flag
      return out
  | 0x02, .publish => do
      let value ← Reader.integer
      return { out with messageExpiry := some value }
  | 0x03, .publish => do
      let _ ← Reader.string limits.properties
      return out
  | 0x08, .publish => do
      let value ← Reader.string limits.topic
      ensure (validTopic value limits.topic 8 false) .invalid
      return out
  | 0x09, .publish => do
      let _ ← Reader.binary limits.properties
      return out
  | 0x0b, .publish => do
      let _ ← nonzero (Reader.variableInteger 268435455)
      return out
  | 0x11, .connack | 0x11, .disconnect => do
      let value ← Reader.integer
      return { out with sessionExpiry := some value }
  | 0x12, .connack | 0x1a, .connack | 0x1c, .connack | 0x15, .connack => do
      let _ ← Reader.string limits.properties
      return out
  | 0x13, .connack => do
      let value ← Reader.short
      return { out with serverKeepAlive := some value }
  | 0x16, .connack => do
      let _ ← Reader.binary limits.properties
      return out
  | 0x1f, .connack | 0x1f, .puback | 0x1f, .suback | 0x1f, .disconnect => do
      let _ ← Reader.string limits.properties
      return out
  | 0x21, .connack => do
      let value ← nonzero Reader.short
      return { out with receiveMaximum := some value }
  | 0x22, .connack => do
      let _ ← Reader.short
      return out
  | 0x23, .publish => do
      let value ← nonzero Reader.short
      return { out with topicAlias := some value }
  | 0x24, .connack => do
      let value ← flag
      return { out with maximumQos := some value }
  | 0x25, .connack | 0x28, .connack | 0x29, .connack | 0x2a, .connack => do
      let _ ← flag
      return out
  | 0x26, _ => do
      let _ ← Reader.string limits.properties
      let _ ← Reader.string limits.properties
      return out
  | 0x27, .connack => do
      let value ← nonzero Reader.integer
      return { out with maximumPacketSize := some value }
  | _, _ => throw .invalid

/-- What has been read of a property field. -/
structure PropertyState where
  out : Properties := {}
  seen : List UInt8 := []
  count : ℕ := 0

/-- Read one property. -/
def property (context : Context) (limits : Limits) (state : PropertyState) :
    Reader PropertyState := do
  ensure (¬ state.count + 1 > limits.propertyCount) .tooLarge
  let id ← Reader.byte
  ensure (id < 43) .invalid
  ensure (¬ (id ∈ state.seen ∧ id ≠ 0x26 ∧ id ≠ 0x0b)) .invalid
  let out ← propertyValue context limits id state.out
  return { out, seen := id :: state.seen, count := state.count + 1 }

/-- Read a property field with its length. -/
def properties (context : Context) (limits : Limits) : Reader Properties := do
  let length ← Reader.variableInteger limits.properties
  let field ← take length .invalid
  let state ← within (untilEmpty (property context limits) {}) field
  return state.out

/-! ## Decoding -/

variable (version : Version) (limits : Limits)

/-- The properties of a packet, which only MQTT 5 has. -/
def versionProperties (context : Context) (limits : Limits) : Reader Properties :=
  if version = .v5 then properties context limits else pure {}

/-- The reason codes of CONNACK in MQTT 5. -/
def connackReasons : List UInt8 :=
  [0, 0x80, 0x81, 0x82, 0x83, 0x84, 0x85, 0x86, 0x87, 0x88, 0x89, 0x8a, 0x8c, 0x90, 0x95, 0x97,
    0x99, 0x9a, 0x9b, 0x9c, 0x9d, 0x9f]

def decodeConnack : Reader Packet := do
  let flags ← Reader.byte
  let reason ← Reader.byte
  ensure (¬ (flags &&& 0xfe ≠ 0 ∨ (reason ≠ 0 ∧ flags ≠ 0))) .invalid
  let properties ← versionProperties version .connack limits
  ensure (¬ ((version = .v311 ∧ reason > 5) ∨ (version = .v5 ∧ reason ∉ connackReasons)))
    .invalid
  Reader.done
  return .connack (flags == 1) reason properties

def decodePublish (first : UInt8) : Reader Packet := do
  let qos := (first >>> 1) &&& 3
  ensure (¬ qos > 1) .invalid
  let topic ← Reader.string limits.topic
  ensure (validTopic topic limits.topic 8 false) .invalid
  let packetId ← present (qos = 1) Reader.id
  let properties ← versionProperties version .publish limits
  ensure (properties.topicAlias.isNone) .invalid
  let payload ← remaining
  ensure (¬ payload.length > limits.payload) .tooLarge
  return .publish topic payload qos packetId (first &&& 8 != 0) properties

/-- The reason codes of PUBACK in MQTT 5. -/
def pubackReasons : List UInt8 := [0, 0x10, 0x80, 0x83, 0x87, 0x90, 0x91, 0x97, 0x99]

/-- A reason code, which success may leave out. -/
def optionalReason : Reader UInt8 := do
  if (← remaining).isEmpty then pure 0 else Reader.byte

/-- Properties, which may be left out at the end of a packet. -/
def optionalProperties (context : Context) (limits : Limits) : Reader Unit := do
  if (← remaining).isEmpty then pure ()
  else
    let _ ← properties context limits
    return ()

def decodePuback : Reader Packet := do
  let packetId ← Reader.id
  let reason ← if version = .v5 then optionalReason else pure 0
  ensure (version = .v5 → reason ∈ pubackReasons) .invalid
  if version = .v5 then optionalProperties .puback limits else pure ()
  Reader.done
  return .puback packetId reason

/-- The reason codes of SUBACK. -/
def subackReasons : Version → List UInt8
  | .v311 => [0, 1, 2, 0x80]
  | .v5 => [0, 1, 2, 0x80, 0x83, 0x87, 0x8f, 0x91, 0x97, 0x9e, 0xa1]

def decodeSuback : Reader Packet := do
  let packetId ← Reader.id
  let _ ← versionProperties version .suback limits
  ensure ((← remaining).length = 1) .invalid
  let reason ← Reader.byte
  ensure (reason ∈ subackReasons version) .invalid
  return .suback packetId [reason]

/-- The reason codes of DISCONNECT. -/
def disconnectReason (reason : UInt8) : Bool :=
  reason = 0 ∨ reason = 4 ∨ (0x80 ≤ reason ∧ reason ≤ 0x83) ∨ reason = 0x87 ∨ reason = 0x89 ∨
    reason = 0x8b ∨ (0x8d ≤ reason ∧ reason ≤ 0x90) ∨ (0x93 ≤ reason ∧ reason ≤ 0xa2)

def decodeDisconnect : Reader Packet := do
  let reason ← optionalReason
  ensure (disconnectReason reason) .invalid
  optionalProperties .disconnect limits
  Reader.done
  return .disconnect reason

/-- What follows the fixed header of a packet. -/
def decodeBody (first : UInt8) : Reader Packet :=
  match first >>> 4 with
  | 2 => decodeConnack version limits
  | 3 => decodePublish version limits first
  | 4 => decodePuback version limits
  | 9 => decodeSuback version limits
  | 13 => do
      Reader.done
      return .pingresp
  | 14 => if version = .v5 then decodeDisconnect limits else throw .invalid
  | _ => throw .invalid

/-- Take the first packet out of a buffer, if it is complete. -/
def decode (input : List UInt8) : Except WireError (Option (Packet × List UInt8)) := do
  match ← takeFrame input limits.packet with
  | none => return none
  | some (first, body, rest) =>
      let (packet, _) ← (decodeBody version limits first).parse body
      return some (packet, rest)

/-! ## Encoding -/

structure Connect where
  version : Version
  clientId : Text
  username : Text
  password : List UInt8
  keepAlive : UInt16
  cleanStart : Bool
  sessionExpiry : UInt32
  receiveMaximum : UInt16
  maximumPacketSize : UInt32

/-- A byte string with its length. -/
def putBinary : List UInt8 → Except WireError (List UInt8) := putCounted .tooLarge

/-- The properties of a CONNECT packet of MQTT 5. -/
def connectProperties (value : Connect) : List UInt8 :=
  0x11 :: beBytes 4 value.sessionExpiry.toNat ++ (0x21 :: beBytes 2 value.receiveMaximum.toNat) ++
    (0x27 :: beBytes 4 value.maximumPacketSize.toNat) ++ (0x22 :: beBytes 2 0)

/-- The property field of a CONNECT packet, which only MQTT 5 has. -/
def putConnectProperties (value : Connect) : Except WireError (List UInt8) :=
  if value.version = .v5 then do
    return (← putVariable (connectProperties value).length) ++ connectProperties value
  else .ok []

/-- The flags of a CONNECT packet with a user name and a password. -/
def connectFlags (cleanStart : Bool) : UInt8 := (0xc0 : UInt8) ||| (cleanStart.toUInt8 <<< 1)

def connect (value : Connect) (maximum : ℕ) : Except WireError (List UInt8) := do
  check (¬ (value.clientId = [] ∨ value.clientId.length > 64 ∨ value.username = [] ∨
    value.username.length > 64 ∨ value.password = [] ∨ value.password.length > 256 ∨
    value.receiveMaximum = 0)) .invalid
  let name ← putBinary (ascii "MQTT")
  let version : UInt8 := if value.version = .v5 then 5 else 4
  let properties ← putConnectProperties value
  let clientId ← putBinary value.clientId
  let username ← putBinary value.username
  let password ← putBinary value.password
  encode 0x10 (name ++ [version] ++ [connectFlags value.cleanStart] ++
    beBytes 2 value.keepAlive.toNat ++ properties ++ clientId ++ username ++ password) maximum

def subscribe (id : UInt16) (topic : Text) (maximum : ℕ) : Except WireError (List UInt8) := do
  check (¬ (id = 0 ∨ ¬ validTopic topic 256 8 true)) .invalid
  let filter ← putBinary topic
  let properties : List UInt8 := if version = .v5 then [0] else []
  encode 0x82 (beBytes 2 id.toNat ++ properties ++ filter ++ [1]) maximum

/-- The properties of a PUBLISH packet. -/
def publishProperties (expiry : Option UInt32) : List UInt8 :=
  match version, expiry with
  | .v311, _ => []
  | .v5, some seconds => 5 :: 0x02 :: beBytes 4 seconds.toNat
  | .v5, none => [0]

def publish (topic : Text) (payload : List UInt8) (qos : ℕ) (id : Option UInt16) (dup : Bool)
    (expiry : Option UInt32) (maximum : ℕ) : Except WireError (List UInt8) := do
  check (¬ (qos > 1 ∨ ¬ validTopic topic 256 8 false ∨ ¬ (qos = 0 ↔ id.isNone) ∨ id = some 0 ∨
    (qos = 0 ∧ dup))) .invalid
  check (¬ payload.length > maximum - (topic.length + 16)) .tooLarge
  let name ← putBinary topic
  encode (publishFlags qos false dup)
    (name ++ packetIdBytes (id.map UInt16.toNat) ++ publishProperties version expiry ++ payload)
    maximum

end Netbaiot.Mqtt.Client
