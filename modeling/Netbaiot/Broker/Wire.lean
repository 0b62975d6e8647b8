import Netbaiot.Broker.Message
import Netbaiot.Mqtt.PublishSize

/-!
# Properties from the wire

The decoder and the broker check the same properties with loops of their own.  They agree on
every check but one: the decoder charges a user property with four bytes of framing, the
broker with five.
-/

namespace Netbaiot.Broker

open Lib Mqtt PublishProperties

/-- The milliseconds since the epoch that the gateway reads from its clock; a clock before the
epoch reads as the epoch. -/
def clockMs : Option ℕ → Int64
  | some millis => Int64.ofNat (min millis (2 ^ 63 - 1))
  | none => 0

namespace PublishProperties

/-- The properties of a decoded packet with a deadline instead of an expiry interval. -/
def withDeadline (deadline : Option Int64) (properties : V5.Properties) : PublishProperties where
  payloadFormat := properties.payloadFormat
  expiresAtMs := deadline
  contentType := properties.contentType
  responseTopic := properties.responseTopic
  correlationData := properties.correlationData
  userProperties := properties.userProperties

/-- The properties of a decoded PUBLISH packet. -/
def fromWire (clock : Option ℕ) (properties : V5.Properties) : PublishProperties :=
  withDeadline (properties.messageExpiry.map fun seconds =>
    saturatingAdd64 (clockMs clock) (Int64.ofNat (seconds * 1000))) properties

/-- The properties of a decoded Will; its deadline is set when it is published. -/
def fromWill (properties : V5.Properties) : PublishProperties :=
  withDeadline (properties.messageExpiry.map fun _ => Int64.maxValue) properties

end PublishProperties

theorem clockMs_nonneg (clock : Option ℕ) : 0 ≤ (clockMs clock).toInt := by
  cases clock with
  | none => decide
  | some millis =>
    have hle : min millis (2 ^ 63 - 1) < 2 ^ 63 := by omega
    rw [clockMs, Int64.toInt_ofNat_of_lt hle]
    omega

/-- A deadline is never before the epoch. -/
theorem deadline_nonneg (clock : Option ℕ) {seconds : ℕ} (h : seconds < 2 ^ 32) :
    0 ≤ saturatingAdd64 (clockMs clock) (Int64.ofNat (seconds * 1000)) := by
  have hnow := clockMs_nonneg clock
  have hsum : 0 ≤ (clockMs clock).toInt + (Int64.ofNat (seconds * 1000)).toInt := by
    rw [Int64.toInt_ofNat_of_lt (by omega)]
    omega
  rw [Int64.le_iff_toInt_le, toInt_saturatingAdd64, clampSigned, Int64.toInt_zero]
  omega

/-- The broker counts the wire bytes as they were. -/
theorem wireBytes_withDeadline {deadline : Option Int64} {p : V5.Properties}
    (h : deadline.isSome = p.messageExpiry.isSome) :
    (withDeadline deadline p).wireBytes = p.publishBytes := by
  have hexpiry : (deadline.map fun _ => 5).getD 0 = (p.messageExpiry.map fun _ => 5).getD 0 := by
    cases deadline <;> cases hp : p.messageExpiry <;> simp_all
  simp only [wireBytes, userBytes, V5.Properties.publishBytes, withDeadline, hexpiry]
  omega

/-- Well-formed properties of the wire pass the broker's checks exactly if the user properties
also fit with five bytes of framing each. -/
theorem valid_withDeadline_iff {limits : Limits} {p : V5.Properties} {deadline : Option Int64}
    (hp : p.Admitted limits) (hbytes : p.publishBytes ≤ limits.maxMqttPropertyBytes)
    (hdeadline : ∀ value, deadline = some value → 0 ≤ value)
    (hexpiry : deadline.isSome = p.messageExpiry.isSome) :
    (withDeadline deadline p).valid limits = true ↔
      (withDeadline deadline p).userBytes ≤ limits.maxMqttUserPropertyBytes := by
  have hwire := wireBytes_withDeadline hexpiry
  simp only [valid, Bool.and_eq_true, decide_eq_true_eq, Option.all_eq_true, List.all_eq_true]
  constructor
  · rintro ⟨⟨_, huser⟩, _⟩
    exact huser
  · intro huser
    refine ⟨⟨⟨⟨⟨⟨⟨⟨?_, ?_⟩, ?_⟩, ?_⟩, ?_⟩, hp.userCount⟩, ?_⟩, huser⟩, by omega⟩
    · exact hp.payloadFormat
    · exact hdeadline
    · intro value hvalue
      obtain ⟨hutf8, hlength, _⟩ := hp.contentType value hvalue
      exact ⟨hlength, hutf8⟩
    · intro value hvalue
      obtain ⟨htopic, hlength, _⟩ := hp.responseTopic value hvalue
      exact ⟨hlength, htopic⟩
    · intro value hvalue
      exact (hp.correlationData value hvalue).1
    · intro pair hpair
      obtain ⟨⟨hkey, _⟩, hvalue, _⟩ := hp.userProperties pair hpair
      exact ⟨hkey, hvalue⟩

/-- The user properties fit with five bytes of framing each. -/
def UserPropertiesFit (limits : Limits) (p : V5.Properties) : Prop :=
  (p.userProperties.map fun (key, value) => key.length + value.length + 5).sum ≤
    limits.maxMqttUserPropertyBytes

instance (limits : Limits) (p : V5.Properties) : Decidable (UserPropertiesFit limits p) :=
  inferInstanceAs (Decidable (_ ≤ _))

/-- The properties of a PUBLISH packet or of a Will that the decoder accepts pass the broker's
checks exactly if the user properties fit with the broker's framing. -/
theorem decoded_properties_valid_iff (limits : Limits) (clock : Option ℕ) (input : List UInt8) :
    (∀ topic payload qos packetId retain dup properties rest,
      V5.decode limits input =
        .ok (some (.publish topic payload qos packetId retain dup properties, rest)) →
      ((fromWire clock properties).valid limits = true ↔
        UserPropertiesFit limits properties)) ∧
    ∀ connect will rest, V5.decode limits input = .ok (some (.connect connect, rest)) →
      connect.will = some will →
      ((fromWill will.properties).valid limits = true ↔
        UserPropertiesFit limits will.properties) := by
  constructor
  · intro topic payload qos packetId retain dup properties rest h
    obtain ⟨_, hadmitted, length, hbytes, hlimit, _⟩ := V5.decode_publish h
    refine valid_withDeadline_iff hadmitted (hbytes.trans hlimit) ?_ Option.isSome_map
    intro value hvalue
    obtain ⟨seconds, hseconds, rfl⟩ := Option.map_eq_some_iff.mp hvalue
    exact deadline_nonneg clock (hadmitted.messageExpiry seconds hseconds)
  · intro connect will rest h hwill
    obtain ⟨hadmitted, hbytes⟩ := V5.decode_will h hwill
    refine valid_withDeadline_iff hadmitted hbytes ?_ Option.isSome_map
    intro value hvalue
    obtain ⟨_, _, rfl⟩ := Option.map_eq_some_iff.mp hvalue
    decide

/-- A PUBLISH packet to topic `a` with one user property of the given key and value lengths. -/
def userPropertyPacket (key value : ℕ) : List UInt8 :=
  let property := 0x26 :: (beBytes 2 key ++ List.replicate key 107 ++ beBytes 2 value ++
    List.replicate value 118)
  let body := beBytes 2 1 ++ [97] ++ variableInteger property.length ++ property
  0x30 :: variableInteger body.length ++ body

/-- The properties of the PUBLISH packet with a user property of one letter each. -/
def onePair : V5.Properties := { userProperties := [([107], [118])] }

theorem decoded_properties_valid_iff_sample :
    V5.decode Limits.default (userPropertyPacket 1 1) =
      .ok (some (.publish [97] [] 0 none false false onePair, [])) ∧
    (fromWire (some 0) onePair).valid Limits.default = true := by
  have hdecode : V5.decode Limits.default (userPropertyPacket 1 1) =
      .ok (some (.publish [97] [] 0 none false false onePair, [])) := by decide +kernel
  refine ⟨hdecode, ?_⟩
  exact ((decoded_properties_valid_iff Limits.default (some 0) (userPropertyPacket 1 1)).1
    [97] [] 0 none false false onePair [] hdecode).mpr (by decide)

/-- The properties of a decoded PUBLISH packet. -/
def publishedProperties (limits : Limits) (input : List UInt8) : Option V5.Properties :=
  match V5.decode limits input with
  | .ok (some (.publish _ _ _ _ _ _ properties, _)) => some properties
  | _ => none

/-- The decoder accepts user properties of exactly the limit, and the broker refuses them. -/
theorem decoded_properties_refused : Limits.default.validate = .ok () ∧
    ∃ properties, publishedProperties Limits.default (userPropertyPacket 1022 1022) =
        some properties ∧
      (fromWire (some 0) properties).valid Limits.default = false := by
  have hrefused : (publishedProperties Limits.default (userPropertyPacket 1022 1022)).any
      (fun properties =>
        !(fromWire (some 0) properties).valid Limits.default) = true := by
    decide +kernel
  obtain ⟨properties, hproperties, hinvalid⟩ := (Option.any_eq_true _ _).mp hrefused
  exact ⟨by decide +kernel, properties, hproperties, by simpa using hinvalid⟩

end Netbaiot.Broker
