import Netbaiot.Mqtt.Frame
import Netbaiot.Mqtt.V311
import Netbaiot.Mqtt.V5

/-!
# Sizes of PUBLISH packets

What a decoder accepts as a PUBLISH packet has the size of its topic, packet identifier,
properties and payload with their framing, and what an encoder produces as well.  The
properties that a decoder accepts are within their limits.
-/

namespace Netbaiot.Mqtt

open Lib Parser

variable {limits : Limits} {first qos : UInt8} {dup retain : Bool} {maximum n : ℕ}
  {body input left payload rest : List UInt8} {p : Properties} {topic : Text} {packetId : Option ℕ}

/-- What both decoders check of a PUBLISH packet. -/
structure PublishShape (limits : Limits) (topic : Text) (qos : UInt8) (packetId : Option ℕ) :
    Prop where
  valid : validTopic topic limits false
  short : topic.length < 2 ^ 16
  delivery : qos ≤ 2
  identified : packetId.isSome ↔ qos ≠ 0

/-- A packet with a body of this size is within the packet limit. -/
def FrameFits (limits : Limits) (size : ℕ) : Prop :=
  size ≤ 268435455 ∧ size + variableSize size + 1 ≤ limits.maxMqttPacketSize

theorem FrameFits.mono {small large : ℕ} (h : FrameFits limits large) (hle : small ≤ large) :
    FrameFits limits small := by
  have hsize := variableSize_mono hle
  obtain ⟨hsmall, hmax⟩ := h
  exact ⟨by omega, by omega⟩

/-- The flags of a PUBLISH packet hold a QoS. -/
theorem qos_le_two (htype : first >>> 4 = 3) (hflags : validFlags (first >>> 4) (first &&& 0x0f)) :
    (first >>> 1) &&& 3 ≤ 2 := by
  have hall : ∀ i : Fin 256, UInt8.ofNat i >>> 4 = 3 →
      validFlags (UInt8.ofNat i >>> 4) (UInt8.ofNat i &&& 0x0f) →
      (UInt8.ofNat i >>> 1) &&& 3 ≤ 2 := by decide +kernel
  have hfirst := hall ⟨first.toNat, first.toNat_lt⟩
  rw [UInt8.ofNat_toNat] at hfirst
  exact hfirst htype hflags

/-- A PUBLISH packet of any QoS has flags its type may have; only a QoS above zero has
duplicates. -/
theorem validFlags_publishFlags {qos : ℕ} (retain : Bool) (hqos : qos ≤ 2) (hdup : dup → qos ≠ 0) :
    validFlags (publishFlags qos retain dup >>> 4) (publishFlags qos retain dup &&& 0x0f) := by
  have hall : ∀ (qos : Fin 3) (retain dup : Bool), (dup → (qos : ℕ) ≠ 0) →
      validFlags (publishFlags qos retain dup >>> 4) (publishFlags qos retain dup &&& 0x0f) := by
    decide +kernel
  exact hall ⟨qos, by omega⟩ retain dup hdup

/-! ## Strings -/

section Read

variable {ε : Type} {e e' : ε}

/-- An optional packet identifier is there if its flag says so. -/
theorem parse_optionalId {flag : Prop} [Decidable flag]
    (h : (present flag (checked (number 2 e) (· ≠ 0) e')).parse input = .ok (packetId, rest)) :
    (packetId.isSome ↔ flag) ∧
      input.length = (if packetId.isSome then 2 else 0) + rest.length := by
  unfold present at h
  split at h
  · next hflag =>
    obtain ⟨id, hid, rfl⟩ := parse_map_eq_ok.mp h
    obtain ⟨bytes, rfl, hwidth, _⟩ := parse_number_eq_ok.mp (parse_checked_eq_ok.mp hid).1
    exact ⟨by simp [hflag], by rw [List.length_append, hwidth]; rfl⟩
  · next hflag =>
    obtain ⟨rfl, rfl⟩ := parse_pure_eq_ok.mp h
    exact ⟨by simp [hflag], (Nat.zero_add _).symm⟩

theorem parse_text {e'' : ε} {text : Text}
    (h : (checked (counted 2 maximum e e' e) (validUtf8 ·) e'').parse input = .ok (text, rest)) :
    validUtf8 text ∧ input.length = text.length + 2 + rest.length ∧ text.length ≤ maximum ∧
      text.length < 2 ^ 16 := by
  obtain ⟨hbytes, hutf8⟩ := parse_checked_eq_ok.mp h
  exact ⟨hutf8, parse_counted hbytes⟩

theorem parse_byte_length {b : UInt8} (h : (byte e).parse input = .ok (b, rest)) :
    input.length = 1 + rest.length := by
  rw [parse_byte_eq_ok.mp h, List.length_cons, Nat.add_comm]

theorem parse_number_length {width : ℕ} (h : (number width e).parse input = .ok (n, rest)) :
    input.length = width + rest.length ∧ n < 256 ^ width := by
  obtain ⟨bytes, rfl, rfl, rfl⟩ := parse_number_eq_ok.mp h
  exact ⟨List.length_append, ofBeBytes_lt bytes⟩

theorem parse_variableInteger {refused : WireError → ε}
    (h : (takeVariableInteger e refused maximum).parse input = .ok (n, rest)) :
    input.length = variableSize n + rest.length ∧ n ≤ maximum ∧ n ≤ 268435455 := by
  unfold takeVariableInteger parse at h
  simp only [StateT.run] at h
  split at h
  · next value used hlength =>
    obtain ⟨rfl, rfl⟩ := h
    obtain ⟨hmax, hsmall, hused, hinput⟩ := remainingLength_eq_some hlength
    rw [List.length_drop]
    omega
  all_goals cases h

end Read

/-! ## Properties of MQTT 5 -/

namespace V5

/-- The wire bytes of the properties that a PUBLISH packet may have. -/
def Properties.publishBytes (p : Properties) : ℕ :=
  (p.payloadFormat.map fun _ => 2).getD 0 + (p.messageExpiry.map fun _ => 5).getD 0 +
    (p.contentType.map fun value => value.length + 3).getD 0 +
    (p.responseTopic.map fun value => value.length + 3).getD 0 +
    (p.correlationData.map fun value => value.length + 3).getD 0 +
    (p.userProperties.map fun pair => pair.1.length + pair.2.length + 5).sum

/-- Each property is well formed, within its own limit and short enough for a length of two
bytes. -/
structure Properties.Admitted (limits : Limits) (p : Properties) : Prop where
  payloadFormat : ∀ value, p.payloadFormat = some value → value ≤ 1
  messageExpiry : ∀ value, p.messageExpiry = some value → value < 2 ^ 32
  contentType : ∀ value, p.contentType = some value →
    validUtf8 value ∧ value.length ≤ limits.maxMqttContentTypeBytes ∧ value.length < 2 ^ 16
  responseTopic : ∀ value, p.responseTopic = some value → validTopic value limits false ∧
    value.length ≤ limits.maxMqttResponseTopicBytes ∧ value.length < 2 ^ 16
  correlationData : ∀ value, p.correlationData = some value →
    value.length ≤ limits.maxMqttCorrelationDataBytes ∧ value.length < 2 ^ 16
  userCount : p.userProperties.length ≤ limits.maxMqttUserProperties
  userProperties : ∀ pair ∈ p.userProperties,
    (validUtf8 pair.1 ∧ pair.1.length < 2 ^ 16) ∧ validUtf8 pair.2 ∧ pair.2.length < 2 ^ 16

theorem Properties.admitted_empty (limits : Limits) : Properties.Admitted limits {} where
  payloadFormat _ h := by cases h
  messageExpiry _ h := by cases h
  contentType _ h := by cases h
  responseTopic _ h := by cases h
  correlationData _ h := by cases h
  userCount := Nat.zero_le _
  userProperties _ h := by cases h

/-- The properties that a PUBLISH packet may have. -/
def Properties.publishPart (p : Properties) : Properties :=
  { payloadFormat := p.payloadFormat, messageExpiry := p.messageExpiry,
    contentType := p.contentType, responseTopic := p.responseTopic,
    correlationData := p.correlationData, userProperties := p.userProperties }

/-- Properties of other packets do not count. -/
theorem Properties.Admitted.of_publishPart {p' : Properties} (h : p.Admitted limits)
    (hp : p'.publishPart = p.publishPart) :
    p'.Admitted limits ∧ p'.publishBytes = p.publishBytes := by
  have hpart : p.publishPart.Admitted limits := ⟨h.1, h.2, h.3, h.4, h.5, h.6, h.7⟩
  have hbytes : p'.publishPart.publishBytes = p.publishPart.publishBytes := by rw [hp]
  rw [← hp] at hpart
  exact ⟨⟨hpart.1, hpart.2, hpart.3, hpart.4, hpart.5, hpart.6, hpart.7⟩, hbytes⟩

/-- The value of a property is admitted, and counted with at most the bytes read for it. -/
theorem propertyValue_spec {id : UInt8} {state state' : PropertyState}
    (h : (propertyValue limits id state).parse input = .ok (state', rest))
    (hstate : state.result.Admitted limits) :
    state'.result.Admitted limits ∧
      state'.result.publishBytes + rest.length ≤ state.result.publishBytes + input.length + 1 := by
  have hother : ∀ {p' : Properties}, p'.publishPart = state.result.publishPart →
      rest.length ≤ input.length → p'.Admitted limits ∧
        p'.publishBytes + rest.length ≤ state.result.publishBytes + input.length + 1 := by
    intro p' hp hlength
    obtain ⟨hadmitted, hbytes⟩ := hstate.of_publishPart hp
    exact ⟨hadmitted, by omega⟩
  unfold propertyValue at h
  split at h
  case h_17 => exact (parse_throw.mp h).elim
  all_goals simp only [parse_bind_eq_ok, parse_ensure_eq_ok, parse_pure_eq_ok] at h
  case h_1 =>
    obtain ⟨value, _, hread, _, _, ⟨hvalue, rfl⟩, rfl, rfl⟩ := h
    have hlength := parse_byte_length hread
    refine ⟨{ hstate with payloadFormat := ?_ }, ?_⟩
    · rintro _ ⟨⟩
      exact UInt8.not_lt.mp hvalue
    · simp only [Properties.publishBytes, Option.map_some, Option.getD_some]
      omega
  case h_2 =>
    obtain ⟨value, _, hread, rfl, rfl⟩ := h
    obtain ⟨hlength, hsmall⟩ := parse_number_length hread
    refine ⟨{ hstate with messageExpiry := ?_ }, ?_⟩
    · rintro _ ⟨⟩
      exact hsmall
    · simp only [Properties.publishBytes, Option.map_some, Option.getD_some]
      omega
  case h_3 =>
    obtain ⟨value, _, hread, rfl, rfl⟩ := h
    obtain ⟨hutf8, hlength, hlimit, hshort⟩ := parse_text hread
    refine ⟨{ hstate with contentType := ?_ }, ?_⟩
    · rintro _ ⟨⟩
      exact ⟨hutf8, hlimit, hshort⟩
    · simp only [Properties.publishBytes, Option.map_some, Option.getD_some]
      omega
  case h_4 =>
    obtain ⟨value, _, hread, _, _, ⟨hvalid, rfl⟩, rfl, rfl⟩ := h
    obtain ⟨_, hlength, hlimit, hshort⟩ := parse_text hread
    refine ⟨{ hstate with responseTopic := ?_ }, ?_⟩
    · rintro _ ⟨⟩
      exact ⟨hvalid, hlimit, hshort⟩
    · simp only [Properties.publishBytes, Option.map_some, Option.getD_some]
      omega
  case h_5 =>
    obtain ⟨value, _, hread, rfl, rfl⟩ := h
    obtain ⟨hlength, hlimit, hshort⟩ := parse_counted hread
    refine ⟨{ hstate with correlationData := ?_ }, ?_⟩
    · rintro _ ⟨⟩
      exact ⟨hlimit, hshort⟩
    · simp only [Properties.publishBytes, Option.map_some, Option.getD_some]
      omega
  case h_15 =>
    obtain ⟨_, _, ⟨hcount, rfl⟩, key, _, hkey, value, _, hvalue, _, _, ⟨_, rfl⟩, rfl, rfl⟩ := h
    obtain ⟨hkeyUtf8, hkeyLength, _, hkeyShort⟩ := parse_text hkey
    obtain ⟨hvalueUtf8, hvalueLength, _, hvalueShort⟩ := parse_text hvalue
    refine ⟨{ hstate with userCount := ?_, userProperties := ?_ }, ?_⟩
    · rw [List.length_append, List.length_singleton]
      omega
    · intro pair hpair
      rcases List.mem_append.mp hpair with hold | hnew
      · exact hstate.userProperties pair hold
      · rw [List.mem_singleton.mp hnew]
        exact ⟨⟨hkeyUtf8, hkeyShort⟩, hvalueUtf8, hvalueShort⟩
    · simp only [Properties.publishBytes, List.map_append, List.sum_append, List.map_cons,
        List.map_nil, List.sum_cons, List.sum_nil]
      omega
  -- The remaining properties belong to other packets.
  case h_6 | h_11 | h_14 =>
    obtain ⟨value, _, hread, rfl, rfl⟩ := h
    have hlength := (parse_number_length hread).1
    exact hother rfl (by omega)
  case h_7 | h_12 =>
    obtain ⟨value, _, hread, rfl, rfl⟩ := h
    have hlength := (parse_text hread).2.1
    exact hother rfl (by omega)
  case h_8 =>
    obtain ⟨value, _, hread, rfl, rfl⟩ := h
    have hlength := (parse_counted hread).1
    exact hother rfl (by omega)
  case h_9 | h_10 =>
    obtain ⟨value, _, hread, _, _, ⟨_, rfl⟩, rfl, rfl⟩ := h
    have hlength := parse_byte_length hread
    exact hother rfl (by omega)
  case h_13 | h_16 =>
    obtain ⟨value, _, hread, _, _, ⟨_, rfl⟩, rfl, rfl⟩ := h
    have hlength := (parse_number_length hread).1
    exact hother rfl (by omega)

/-- One property is admitted and takes at least the bytes it is counted with. -/
theorem property_spec {context : PropertyContext} {state state' : PropertyState}
    (h : (property context limits state).parse input = .ok (state', rest))
    (hstate : state.result.Admitted limits) :
    state'.result.Admitted limits ∧
      state'.result.publishBytes + rest.length ≤ state.result.publishBytes + input.length := by
  simp only [property, parse_bind_eq_ok, parse_ensure_eq_ok] at h
  obtain ⟨id, _, hid, _, _, ⟨_, rfl⟩, _, _, ⟨_, rfl⟩, h⟩ := h
  have hlength := parse_byte_length hid
  split at h
  · exact (parse_throw.mp h).elim
  · exact (parse_throw.mp h).elim
  · have hvalue := propertyValue_spec h hstate
    exact ⟨hvalue.1, by have := hvalue.2; dsimp only at this; omega⟩

/-- What a property field decodes to is admitted, and takes at most the bytes of the field. -/
theorem properties_spec {context : PropertyContext}
    (h : (properties context limits).parse input = .ok (p, rest)) :
    p.Admitted limits ∧ ∃ length, p.publishBytes ≤ length ∧ length ≤ limits.maxMqttPropertyBytes ∧
      length ≤ 268435455 ∧ input.length = variableSize length + length + rest.length := by
  simp only [properties, parse_bind_eq_ok, parse_ensure_eq_ok,
    parse_pure_eq_ok, parse_take_eq_ok, parse_within_eq_ok] at h
  obtain ⟨length, _, hlength, field, _, ⟨rfl, rfl⟩, state, _, ⟨rfl, left, hloop⟩, _, _, ⟨_, rfl⟩,
    rfl, rfl⟩ := h
  obtain ⟨hinput, hlimit, hsmall⟩ := parse_variableInteger hlength
  obtain ⟨hadmitted, hbytes⟩ := untilEmpty_invariant
    (I := fun state input => state.result.Admitted limits ∧
      state.result.publishBytes + input.length ≤ field.length)
    (fun s input s' rest hs hstep => by
      obtain ⟨hadmitted, hbytes⟩ := property_spec hstep hs.1
      exact ⟨hadmitted, hbytes.trans hs.2⟩)
    hloop ⟨Properties.admitted_empty limits, by simp [Properties.publishBytes]⟩
  rw [List.length_append] at hinput
  exact ⟨hadmitted, field.length, by omega, hlimit, hsmall, by omega⟩

/-! ## Packets -/

/-- Only packets of type 3 decode to a PUBLISH. -/
theorem decodeBody_publish
    (h : (decodeBody limits first).parse body =
      .ok (.publish topic payload qos packetId retain dup p, left)) :
    first >>> 4 = 3 ∧ (decodePublish limits first).parse body =
      .ok (.publish topic payload qos packetId retain dup p, left) := by
  unfold decodeBody at h
  split at h
  case h_2 htype => exact ⟨htype, h⟩
  all_goals
    simp [decodeConnect, decodeSubscribe, decodeUnsubscribe, decodeDisconnect,
      parse_bind_eq_ok, parse_map_eq_ok] at h

/-- Only packets of type 1 decode to a CONNECT. -/
theorem decodeBody_connect {connect : Connect}
    (h : (decodeBody limits first).parse body = .ok (.connect connect, left)) :
    (decodeConnect limits).parse body = .ok (.connect connect, left) := by
  unfold decodeBody at h
  split at h
  case h_1 => exact h
  all_goals
    simp [decodePublish, decodeSubscribe, decodeUnsubscribe, decodeDisconnect,
      parse_bind_eq_ok, parse_map_eq_ok] at h

/-- What the MQTT 5 decoder accepts as a PUBLISH packet. -/
theorem decode_publish
    (h : decode limits input =
      .ok (some (.publish topic payload qos packetId retain dup p, rest))) :
    PublishShape limits topic qos packetId ∧ p.Admitted limits ∧
      ∃ length, p.publishBytes ≤ length ∧ length ≤ limits.maxMqttPropertyBytes ∧
        FrameFits limits (topic.length + 2 + (if packetId.isSome then 2 else 0) +
          variableSize length + length + payload.length) := by
  obtain ⟨first, body, left, hfound, hparse⟩ := decodeFrame_eq_some h
  obtain ⟨hflags, (hfits : FrameFits limits body.length)⟩ :=
    takeFrame_eq_some (mapError_eq_ok.mp hfound)
  obtain ⟨htype, hparse⟩ := decodeBody_publish hparse
  simp only [decodePublish, parse_bind_eq_ok, parse_ensure_eq_ok,
    parse_remaining_eq_ok, parse_pure_eq_ok, Packet.publish.injEq] at hparse
  obtain ⟨_, _, ⟨_, rfl⟩, _, _, htopic, _, _, ⟨hvalid, rfl⟩, _, _, hid, _, _, hproperties, _, _,
    ⟨rfl, rfl⟩, ⟨rfl, rfl, rfl, rfl, rfl, rfl, rfl⟩, rfl⟩ := hparse
  obtain ⟨_, hlength, _, hshort⟩ := parse_text htopic
  obtain ⟨hsome, hidLength⟩ := parse_optionalId hid
  obtain ⟨hadmitted, length, hbytes, hlimit, _, hpropertiesLength⟩ := properties_spec hproperties
  refine ⟨⟨hvalid, hshort, qos_le_two htype hflags, hsome⟩, hadmitted, length, hbytes, hlimit, ?_⟩
  rw [hlength, hidLength, hpropertiesLength] at hfits
  simpa only [Nat.add_assoc] using hfits

/-- What the MQTT 5 decoder accepts as the Will of a CONNECT packet. -/
theorem decode_will {connect : Connect} {will : Will}
    (h : decode limits input = .ok (some (.connect connect, rest)))
    (hwill : connect.will = some will) :
    will.properties.Admitted limits ∧
      will.properties.publishBytes ≤ limits.maxMqttPropertyBytes := by
  obtain ⟨first, body, left, _, hparse⟩ := decodeFrame_eq_some h
  have hconnect := decodeBody_connect hparse
  simp only [decodeConnect, parse_bind_eq_ok, parse_ensure_eq_ok,
    parse_pure_eq_ok, Packet.connect.injEq] at hconnect
  obtain ⟨_, _, _, _, _, ⟨_, rfl⟩, _, _, _, _, _, ⟨_, rfl⟩, _, _, _, _, _, _, _, _, ⟨_, rfl⟩, _, _,
    _, _, _, _, found, _, hfound, _, _, _, _, _, _, _, _, _, rfl, _⟩ := hconnect
  subst hwill
  unfold present at hfound
  split at hfound
  · simp only [parse_map_eq_ok, decodeWill, parse_bind_eq_ok,
      parse_ensure_eq_ok, parse_pure_eq_ok, Option.some.injEq] at hfound
    obtain ⟨_, ⟨p, _, hproperties, _, _, _, _, _, ⟨_, rfl⟩, _, _, _, rfl, rfl⟩, rfl⟩ := hfound
    obtain ⟨hadmitted, length, hbytes, hlimit, _⟩ := properties_spec hproperties
    exact ⟨hadmitted, hbytes.trans hlimit⟩
  · have := parse_pure_eq_ok.mp hfound
    cases this.1

/-! ## Encoding -/

/-- Every string is short enough for a length of two bytes. -/
structure Properties.Short (p : Properties) : Prop where
  contentType : ∀ value, p.contentType = some value → value.length < 2 ^ 16
  responseTopic : ∀ value, p.responseTopic = some value → value.length < 2 ^ 16
  correlationData : ∀ value, p.correlationData = some value → value.length < 2 ^ 16
  userProperties : ∀ pair ∈ p.userProperties, pair.1.length < 2 ^ 16 ∧ pair.2.length < 2 ^ 16

theorem putBinary_of_lt {value : List UInt8} (h : value.length < 2 ^ 16) :
    putBinary value = .ok (beBytes 2 value.length ++ value) :=
  putCounted_eq_ok.mpr ⟨rfl, h⟩

/-- An optional property whose value can be written. -/
theorem putOptional_ok {α : Type} (id : UInt8) (put : α → Except Error (List UInt8))
    (size : α → ℕ) (value : Option α)
    (h : ∀ a, value = some a → ∃ bytes, put a = .ok bytes ∧ bytes.length + 1 = size a) :
    ∃ bytes, putOptional id put value = .ok bytes ∧ bytes.length = (value.map size).getD 0 := by
  cases value with
  | none => exact ⟨[], rfl, rfl⟩
  | some a =>
    obtain ⟨bytes, hput, hsize⟩ := h a rfl
    refine ⟨id :: bytes, ?_, hsize⟩
    rw [putOptional, hput]
    rfl

theorem putString_ok {value : Text} (h : value.length < 2 ^ 16) :
    ∃ bytes, putString value = .ok bytes ∧ bytes.length + 1 = value.length + 3 := by
  refine ⟨_, putBinary_of_lt h, ?_⟩
  rw [List.length_append, beBytes_length]
  omega

theorem putUserProperties_ok {pairs : List (Text × Text)}
    (h : ∀ pair ∈ pairs, pair.1.length < 2 ^ 16 ∧ pair.2.length < 2 ^ 16) :
    ∃ bytes, putUserProperties pairs = .ok bytes ∧
      bytes.length = (pairs.map fun pair => pair.1.length + pair.2.length + 5).sum := by
  induction pairs with
  | nil => exact ⟨[], rfl, rfl⟩
  | cons pair rest ih =>
    obtain ⟨key, value⟩ := pair
    obtain ⟨bytes, hbytes, hlength⟩ := ih fun pair hpair => h pair (List.mem_cons_of_mem _ hpair)
    obtain ⟨hkey, hvalue⟩ := h (key, value) List.mem_cons_self
    refine ⟨0x26 :: ((beBytes 2 key.length ++ key) ++ (beBytes 2 value.length ++ value)) ++ bytes,
      ?_, ?_⟩
    · rw [putUserProperties, putString, putString, putBinary_of_lt hkey, putBinary_of_lt hvalue,
        hbytes]
      rfl
    · simp only [List.length_cons, List.length_append, beBytes_length, hlength, List.map_cons,
        List.sum_cons]
      omega

/-- The properties of a PUBLISH packet are written with the bytes they are counted with. -/
theorem putProperties_ok (h : p.Short) :
    ∃ bytes, putProperties p = .ok bytes ∧ bytes.length = p.publishBytes := by
  obtain ⟨format, hformat, lformat⟩ := putOptional_ok 0x01 (fun value => .ok [value]) (fun _ => 2)
    p.payloadFormat fun _ _ => ⟨_, rfl, rfl⟩
  obtain ⟨expiry, hexpiry, lexpiry⟩ := putOptional_ok 0x02 (fun value => .ok (beBytes 4 value))
    (fun _ => 5) p.messageExpiry fun value _ => ⟨_, rfl, by rw [beBytes_length]⟩
  obtain ⟨content, hcontent, lcontent⟩ := putOptional_ok 0x03 putString
    (fun value => value.length + 3) p.contentType fun value hvalue =>
      putString_ok (h.contentType value hvalue)
  obtain ⟨response, hresponse, lresponse⟩ := putOptional_ok 0x08 putString
    (fun value => value.length + 3) p.responseTopic fun value hvalue =>
      putString_ok (h.responseTopic value hvalue)
  obtain ⟨correlation, hcorrelation, lcorrelation⟩ := putOptional_ok 0x09 putBinary
    (fun value => value.length + 3) p.correlationData fun value hvalue =>
      putString_ok (h.correlationData value hvalue)
  obtain ⟨user, huser, luser⟩ := putUserProperties_ok h.userProperties
  refine ⟨format ++ expiry ++ content ++ response ++ correlation ++ user, ?_, ?_⟩
  · rw [putProperties, hformat, hexpiry, hcontent, hresponse, hcorrelation, huser]
    rfl
  · simp only [List.length_append, lformat, lexpiry, lcontent, lresponse, lcorrelation, luser,
      Properties.publishBytes]

/-- The size of the body of a PUBLISH packet. -/
def OutboundPublish.bodySize (packet : OutboundPublish) : ℕ :=
  packet.topic.length + 2 + (if packet.packetId.isSome then 2 else 0) +
    variableSize packet.properties.publishBytes + packet.properties.publishBytes +
    packet.payload.length

/-- A PUBLISH packet is written exactly if it is not too large. -/
theorem publish_iff {packet : OutboundPublish} {bound : ℕ} (hbound : maximum ≤ bound)
    (hqos : packet.qos ≤ 2) (hdup : packet.dup → packet.qos ≠ 0)
    (hid : packet.qos ≠ 0 → packet.packetId.isSome) (htopic : packet.topic.length < 2 ^ 16)
    (hproperties : packet.properties.Short) (hbytes : packet.properties.publishBytes ≤ 268435455) :
    (∃ frame, publish packet maximum = .ok frame ∧ frame.length ≤ bound) ↔
      packet.bodySize ≤ 268435455 ∧
        packet.bodySize + variableSize packet.bodySize + 1 ≤ maximum := by
  obtain ⟨encoded, hencoded, hlength⟩ := putProperties_ok hproperties
  let body := (beBytes 2 packet.topic.length ++ packet.topic) ++ packetIdBytes packet.packetId ++
    variableInteger encoded.length ++ encoded ++ packet.payload
  have hbody : body.length = packet.bodySize := by
    have hidBytes : (packetIdBytes packet.packetId).length =
        if packet.packetId.isSome then 2 else 0 := by
      cases packet.packetId <;> simp [packetIdBytes]
    simp only [body, List.length_append, beBytes_length, hidBytes,
      hlength, variableInteger_length hbytes, OutboundPublish.bodySize]
    omega
  have hflags := validFlags_publishFlags packet.retain hqos hdup
  have heq : publish packet maximum =
      (encode (publishFlags packet.qos packet.retain packet.dup) body maximum).mapError adapt := by
    have hrequest : ¬ (packet.qos > 2 ∨ (packet.qos > 0 ∧ packet.packetId.isNone)) := by
      rintro (hlarge | ⟨hpos, hnone⟩)
      · omega
      · have := hid (by omega)
        rw [Option.isNone_iff_eq_none] at hnone
        rw [hnone] at this
        cases this
    rw [publish, check_bind_of hrequest, putString, putBinary_of_lt htopic, hencoded]
    rfl
  have hencode : _ ↔ body.length ≤ 268435455 ∧ _ ≤ maximum := encode_iff hbound hflags
  rw [hbody] at hencode
  simpa only [heq, mapError_eq_ok] using hencode

end V5

namespace V311

/-- Only packets of type 3 decode to a PUBLISH. -/
theorem decodeBody_publish
    (h : (decodeBody limits first).parse body =
      .ok (.publish topic payload qos packetId retain dup, left)) :
    first >>> 4 = 3 ∧ (decodePublish limits first).parse body =
      .ok (.publish topic payload qos packetId retain dup, left) := by
  unfold decodeBody at h
  split at h
  case h_3 htype => exact ⟨htype, h⟩
  case h_1 =>
    simp only [decodeConnect, parse_bind_eq_ok, parse_ensure_eq_ok] at h
    obtain ⟨_, _, _, _, _, _, _, _, _, h⟩ := h
    split at h <;>
      simp [decodeConnectFields, parse_bind_eq_ok, parse_map_eq_ok] at h
  all_goals
    simp [decodeConnack, decodeSubscribe, decodeSuback, decodeUnsubscribe,
      parse_bind_eq_ok, parse_map_eq_ok] at h

/-- What the MQTT 3.1.1 decoder accepts as a PUBLISH packet. -/
theorem decode_publish
    (h : decode limits input = .ok (some (.publish topic payload qos packetId retain dup, rest))) :
    PublishShape limits topic qos packetId ∧
      FrameFits limits (topic.length + 2 + (if packetId.isSome then 2 else 0) +
        payload.length) := by
  obtain ⟨first, body, left, hfound, hparse⟩ := decodeFrame_eq_some h
  obtain ⟨hflags, (hfits : FrameFits limits body.length)⟩ :=
    takeFrame_eq_some (mapError_eq_ok.mp hfound)
  obtain ⟨htype, hparse⟩ := decodeBody_publish hparse
  simp only [decodePublish, parse_bind_eq_ok, parse_ensure_eq_ok,
    parse_remaining_eq_ok, parse_pure_eq_ok, Packet.publish.injEq] at hparse
  obtain ⟨_, _, htopic, _, _, ⟨hvalid, rfl⟩, _, _, hid, _, _, ⟨rfl, rfl⟩,
    ⟨rfl, rfl, rfl, rfl, rfl, rfl⟩, rfl⟩ := hparse
  obtain ⟨_, hlength, _, hshort⟩ := parse_text htopic
  obtain ⟨hsome, hidLength⟩ := parse_optionalId hid
  rw [hlength, hidLength, ← Nat.add_assoc] at hfits
  exact ⟨⟨hvalid, hshort, qos_le_two htype hflags, hsome.trans UInt8.pos_iff_ne_zero⟩, hfits⟩

/-- A PUBLISH packet with a packet identifier is written exactly if it is not too large. -/
theorem publish_iff {qos id : ℕ} (retain dup : Bool) (htopic : validTopic topic limits false)
    (hshort : topic.length < 2 ^ 16) (hqos : qos ≤ 2) (hpos : qos ≠ 0) (hid : id ≠ 0) :
    (∃ frame, publish topic payload qos (some id) retain dup limits = .ok frame ∧
        frame.length ≤ limits.maxMqttPacketSize) ↔
      FrameFits limits (topic.length + payload.length + 4) := by
  let body := beBytes 2 topic.length ++ topic ++ packetIdBytes (some id) ++ payload
  have hbody : body.length = topic.length + payload.length + 4 := by
    simp only [body, List.length_append, beBytes_length, packetIdBytes, Option.elim_some]
    omega
  have hflags := validFlags_publishFlags retain hqos fun _ : dup => hpos
  have hencode : (∃ frame, encode (publishFlags qos retain dup) body limits.maxMqttPacketSize =
      .ok frame ∧ frame.length ≤ limits.maxMqttPacketSize) ↔ FrameFits limits body.length :=
    encode_iff le_rfl hflags
  rw [hbody] at hencode
  have hrequest : ¬ (qos > 2 ∨ ¬ validTopic topic limits false ∨ some id = some 0 ∨
      ¬ (qos = 0 ↔ (some id).isNone) ∨ (qos = 0 ∧ dup)) := by
    simp [htopic, hid, hpos, hqos]
  rw [← hencode]
  refine exists_congr fun frame => and_congr_left fun hlength => ?_
  rw [publish, check_bind_of hrequest, check_bind_of hshort]
  simp only [Option.isSome_some, if_true, except_bind_eq_ok, mapError_eq_ok, check_eq_ok]
  refine ⟨fun ⟨_, _, _, _, h⟩ => h, fun h => ?_⟩
  obtain ⟨hsmall, hmax⟩ := hencode.mp ⟨frame, h, hlength⟩
  exact ⟨_, encodedSize_of_le hsmall, (), by omega, h⟩

end V311

end Netbaiot.Mqtt
