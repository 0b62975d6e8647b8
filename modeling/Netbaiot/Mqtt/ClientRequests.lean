import Netbaiot.Mqtt.Client
import Netbaiot.Mqtt.PublishReading

/-!
# Packets of the device client at the gateway

The gateway reads what the client writes: the fields of CONNECT, SUBSCRIBE and PUBLISH come in
the order in which the decoder of the same protocol version expects them.
-/

namespace Netbaiot.Mqtt.Client

open Lib Parser

variable {topic : Text} {limits : Netbaiot.Limits} {value : Connect} {maximum qos : ℕ}
  {frame payload : List UInt8} {id : UInt16} {dup : Bool} {expiry : Option UInt32}

/-- A valid topic is valid under all limits it is within. -/
theorem validTopic_within {filter : Bool} {maxBytes maxDepth maxBytes' maxDepth' : ℕ}
    (h : validTopic topic maxBytes maxDepth filter) (hlength : topic.length ≤ maxBytes')
    (hdepth : (levels topic).length ≤ maxDepth') : validTopic topic maxBytes' maxDepth' filter := by
  simp only [validTopic, Bool.and_eq_true, decide_eq_true_eq] at h ⊢
  exact ⟨⟨⟨⟨h.1.1.1.1, hlength⟩, hdepth⟩, h.1.2⟩, h.2⟩

/-- A topic within the limits of the gateway. -/
structure TopicWithin (topic : Text) (limits : Netbaiot.Limits) : Prop where
  bytes : topic.length ≤ limits.maxTopicBytes
  depth : (levels topic).length ≤ limits.maxTopicDepth

/-- What is a topic for the client is one for the gateway. -/
theorem TopicWithin.valid {filter : Bool} (hwithin : TopicWithin topic limits)
    (h : validTopic topic 256 8 filter) : Mqtt.validTopic topic limits filter :=
  validTopic_within h hwithin.bytes hwithin.depth

/-! ## CONNECT -/

/-- The property field of a CONNECT packet with its length. -/
def connectField (value : Connect) : List UInt8 :=
  if value.version = .v5 then variableInteger (connectProperties value).length ++
    connectProperties value
  else []

/-- The body of a CONNECT packet. -/
def connectBody (value : Connect) : List UInt8 :=
  (beBytes 2 (ascii "MQTT").length ++ ascii "MQTT") ++ ([if value.version = .v5 then 5 else 4] ++
    ([connectFlags value.cleanStart] ++ (beBytes 2 value.keepAlive.toNat ++ (connectField value ++
      ((beBytes 2 value.clientId.length ++ value.clientId) ++
        ((beBytes 2 value.username.length ++ value.username) ++
          ((beBytes 2 value.password.length ++ value.password) ++ [])))))))

theorem connectProperties_length (value : Connect) : (connectProperties value).length = 16 := by
  simp [connectProperties]

/-- What `connect` checks and writes. -/
theorem connect_eq_ok (h : connect value maximum = .ok frame) :
    value.clientId.length < 2 ^ 16 ∧ value.username.length < 2 ^ 16 ∧
      value.password.length < 2 ^ 16 ∧ value.receiveMaximum ≠ 0 ∧
      encode 0x10 (connectBody value) maximum = .ok frame := by
  simp only [connect, except_bind_eq_ok, check_eq_ok, not_or] at h
  obtain ⟨_, ⟨_, _, _, _, _, _, hreceive⟩, name, hname, field, hfield, clientId, hclientId,
    username, husername, password, hpassword, hencode⟩ := h
  obtain ⟨rfl, _⟩ := putCounted_eq_ok.mp hname
  obtain ⟨rfl, hclientShort⟩ := putCounted_eq_ok.mp hclientId
  obtain ⟨rfl, huserShort⟩ := putCounted_eq_ok.mp husername
  obtain ⟨rfl, hpasswordShort⟩ := putCounted_eq_ok.mp hpassword
  have heq : field = connectField value := by
    rw [putConnectProperties] at hfield
    unfold connectField
    split at hfield
    · next hv5 =>
      cases hfield
      rw [if_pos hv5, connectProperties_length]
    · next hv311 =>
      cases hfield
      rw [if_neg hv311]
  refine ⟨hclientShort, huserShort, hpasswordShort, hreceive, ?_⟩
  rw [← hencode, heq, connectBody]
  simp only [List.append_assoc, List.append_nil]

/-- The flags announce a user name, a password and no Will. -/
theorem connectFlags_spec (cleanStart : Bool) :
    connectFlags cleanStart &&& 4 = 0 ∧ connectFlags cleanStart &&& 0x40 ≠ 0 ∧
      connectFlags cleanStart &&& 0x80 ≠ 0 ∧
      (connectFlags cleanStart &&& 2 != 0) = cleanStart := by
  cases cleanStart <;> decide

/-- The strings of a CONNECT packet are within the limits of the gateway. -/
structure Connect.Within (value : Connect) (limits : Netbaiot.Limits) : Prop where
  clientId : value.clientId.length ≤ limits.maxClientIdBytes
  username : value.username.length ≤ limits.maxUsernameBytes
  password : value.password.length ≤ limits.maxPasswordBytes
  properties : value.version = .v5 → 16 ≤ limits.maxMqttPropertyBytes

/-- The strings of a CONNECT packet are texts of the protocol. -/
structure Connect.Textual (value : Connect) : Prop where
  clientId : validUtf8 value.clientId
  username : validUtf8 value.username

/-- What the gateway makes of a CONNECT packet of MQTT 3.1.1. -/
def Connect.received311 (value : Connect) : V311.Connect where
  clientId := value.clientId
  username := some value.username
  password := some value.password
  keepAlive := value.keepAlive.toNat
  cleanSession := value.cleanStart
  will := none

/-- The properties of a CONNECT packet of MQTT 5. -/
def Connect.receivedProperties (value : Connect) : V5.Properties where
  sessionExpiry := some value.sessionExpiry.toNat
  receiveMaximum := some value.receiveMaximum.toNat
  maximumPacketSize := some value.maximumPacketSize.toNat
  topicAliasMaximum := some 0

/-- What the gateway makes of a CONNECT packet of MQTT 5. -/
def Connect.received5 (value : Connect) : V5.Connect where
  clientId := value.clientId
  username := some value.username
  password := some value.password
  keepAlive := value.keepAlive.toNat
  cleanStart := value.cleanStart
  properties := value.receivedProperties
  will := none

theorem connect_decoded311 (h : connect value maximum = .ok frame)
    (hversion : value.version = .v311) (hlimit : frame.length ≤ limits.maxMqttPacketSize)
    (hwithin : value.Within limits) (htext : value.Textual) (rest : List UInt8) :
    V311.decode limits (frame ++ rest) = .ok (some (.connect value.received311, rest)) := by
  obtain ⟨hclient, huser, hpassword, _, hencode⟩ := connect_eq_ok h
  obtain ⟨hwill, hpasswordFlag, huserFlag, hclean⟩ := connectFlags_spec value.cleanStart
  have hfield : connectField value = [] := by
    rw [connectField, hversion]
    rfl
  have hname : Reads (V311.Cursor.string 6) (beBytes 2 (ascii "MQTT").length ++ ascii "MQTT")
      (ascii "MQTT") := reads_text (by decide) (by decide) (by decide)
  have hallowed : ¬ (connectFlags value.cleanStart &&& 1 ≠ 0 ∨
      (connectFlags value.cleanStart >>> 3) &&& 3 = 3 ∨
      (¬ connectFlags value.cleanStart &&& 4 ≠ 0 ∧ connectFlags value.cleanStart &&& 0x38 ≠ 0) ∨
      (connectFlags value.cleanStart &&& 0x40 ≠ 0 ∧
        connectFlags value.cleanStart &&& 0x80 = 0)) := by
    cases value.cleanStart <;> decide
  have hparse : (V311.decodeBody limits 0x10).parse (connectBody value) =
      .ok (.connect value.received311, []) := by
    show (V311.decodeConnect limits).parse (connectBody value) = _
    rw [connectBody, hfield, hversion, V311.decodeConnect, hname.parse_bind, parse_ensure_bind rfl,
      if_neg (by decide), (reads_byte 4).parse_bind]
    show (V311.decodeConnectFields limits).parse _ = _
    rw [V311.decodeConnectFields, (reads_byte _).parse_bind,
      (reads_number value.keepAlive.toNat_lt).parse_bind, parse_ensure_bind hallowed,
      List.nil_append, (reads_text hclient hwithin.clientId htext.clientId).parse_bind,
      (reads_not_present (not_not.mpr hwill)).parse_bind_nil,
      ((reads_text huser hwithin.username htext.username).present huserFlag).parse_bind,
      ((reads_counted hpassword hwithin.password).present hpasswordFlag).parse_bind, hclean]
    rfl
  exact decode_encode hencode hlimit hparse rest

/-- The properties of a CONNECT packet are read back. -/
theorem reads_connectProperties (hlimit : 16 ≤ limits.maxMqttPropertyBytes)
    (hreceive : value.receiveMaximum ≠ 0) (hmaximum : value.maximumPacketSize ≠ 0) :
    Reads (V5.properties .connect limits)
      (variableInteger (connectProperties value).length ++ connectProperties value)
      value.receivedProperties := by
  have hreceiveNat : value.receiveMaximum.toNat ≠ 0 := fun h => hreceive (UInt16.toNat_inj.mp h)
  have hmaximumNat : value.maximumPacketSize.toNat ≠ 0 := fun h => hmaximum (UInt32.toNat_inj.mp h)
  have hunseen : (0 ||| V5.seenBit 0x11) &&& V5.seenBit 0x21 = 0 ∧
      (0 ||| V5.seenBit 0x11 ||| V5.seenBit 0x21) &&& V5.seenBit 0x27 = 0 ∧
      (0 ||| V5.seenBit 0x11 ||| V5.seenBit 0x21 ||| V5.seenBit 0x27) &&& V5.seenBit 0x22 = 0 := by
    decide
  have hexpiry : Steps (V5.property .connect limits) {} _ _ :=
    .single (List.cons_ne_nil 0x11 _) (V5.reads_property (by decide) (.inr rfl) rfl
      ((reads_number value.sessionExpiry.toNat_lt).bind_nil (reads_pure _)))
  have hwindow := hexpiry.trans (.single (List.cons_ne_nil 0x21 _) (V5.reads_property (by decide)
    (.inr hunseen.1) rfl ((reads_number value.receiveMaximum.toNat_lt).bind_nil
      (Reads.ensure_bind hreceiveNat (reads_pure _)))))
  have hsize := hwindow.trans (.single (List.cons_ne_nil 0x27 _) (V5.reads_property (by decide)
    (.inr hunseen.2.1) rfl ((reads_number value.maximumPacketSize.toNat_lt).bind_nil
      (Reads.ensure_bind hmaximumNat (reads_pure _)))))
  have halias := hsize.trans (.single (List.cons_ne_nil 0x22 _) (V5.reads_property (by decide)
    (.inr hunseen.2.2) rfl ((reads_number (n := 0) (by decide)).bind_nil (reads_pure _))))
  have hlength := connectProperties_length value
  exact V5.reads_field halias rfl (hlength ▸ hlimit) (hlength ▸ by decide)

theorem connect_decoded5 (h : connect value maximum = .ok frame) (hversion : value.version = .v5)
    (hlimit : frame.length ≤ limits.maxMqttPacketSize) (hwithin : value.Within limits)
    (htext : value.Textual) (hmaximum : value.maximumPacketSize ≠ 0) (rest : List UInt8) :
    V5.decode limits (frame ++ rest) = .ok (some (.connect value.received5, rest)) := by
  obtain ⟨hclient, huser, hpassword, hreceive, hencode⟩ := connect_eq_ok h
  obtain ⟨hwill, hpasswordFlag, huserFlag, hclean⟩ := connectFlags_spec value.cleanStart
  have hname : Reads (V5.Cursor.string 6) (beBytes 2 (ascii "MQTT").length ++ ascii "MQTT")
      (ascii "MQTT") := reads_text (by decide) (by decide) (by decide)
  have hallowed : ¬ (connectFlags value.cleanStart &&& 1 ≠ 0 ∨
      (connectFlags value.cleanStart >>> 3) &&& 3 = 3 ∨
      (¬ connectFlags value.cleanStart &&& 4 ≠ 0 ∧
        connectFlags value.cleanStart &&& 0x38 ≠ 0)) := by
    cases value.cleanStart <;> decide
  have hparse : (V5.decodeBody limits 0x10).parse (connectBody value) =
      .ok (.connect value.received5, []) := by
    show (V5.decodeConnect limits).parse (connectBody value) = _
    rw [connectBody, connectField, if_pos hversion, if_pos hversion, V5.decodeConnect,
      hname.parse_bind, parse_ensure_bind rfl, (reads_byte 5).parse_bind,
      parse_ensure_bind rfl, (reads_byte _).parse_bind,
      (reads_number value.keepAlive.toNat_lt).parse_bind, parse_ensure_bind hallowed,
      (reads_connectProperties (hwithin.properties hversion) hreceive hmaximum).parse_bind,
      (reads_text hclient hwithin.clientId htext.clientId).parse_bind,
      (reads_not_present (not_not.mpr hwill)).parse_bind_nil,
      ((reads_text huser hwithin.username htext.username).present huserFlag).parse_bind,
      ((reads_counted hpassword hwithin.password).present hpasswordFlag).parse_bind, hclean]
    rfl
  exact decode_encode hencode hlimit hparse rest

/-! ## SUBSCRIBE -/

/-- What `subscribe` checks and writes. -/
theorem subscribe_eq_ok {version : Version} (h : subscribe version id topic maximum = .ok frame) :
    id.toNat ≠ 0 ∧ validTopic topic 256 8 true ∧ topic.length < 2 ^ 16 ∧
      encode 0x82 (beBytes 2 id.toNat ++ ((if version = .v5 then [0] else []) ++
        (beBytes 2 topic.length ++ topic ++ [1]))) maximum = .ok frame := by
  simp only [subscribe, except_bind_eq_ok, check_eq_ok, not_or, not_not] at h
  obtain ⟨_, ⟨hid, htopic⟩, filter, hfilter, hencode⟩ := h
  obtain ⟨rfl, hshort⟩ := putCounted_eq_ok.mp hfilter
  refine ⟨fun hzero => hid (UInt16.toNat_inj.mp hzero), htopic, hshort, ?_⟩
  rw [← hencode]
  simp only [List.append_assoc]

theorem subscribe_decoded311 (h : subscribe .v311 id topic maximum = .ok frame)
    (hlimit : frame.length ≤ limits.maxMqttPacketSize) (hwithin : TopicWithin topic limits)
    (hfilters : 0 < limits.maxSubscriptionFiltersPerPacket) (rest : List UInt8) :
    V311.decode limits (frame ++ rest) =
      .ok (some (.subscribe id.toNat [(topic, 1)], rest)) := by
  obtain ⟨hid, hvalid, hshort, hencode⟩ := subscribe_eq_ok h
  have htopic := hwithin.valid hvalid
  obtain ⟨hlength, hutf8⟩ := validTopic_text htopic
  have hfilter : Reads (V311.decodeSubscription limits [])
      (beBytes 2 topic.length ++ topic ++ [1]) [(topic, 1)] := by
    refine Reads.ensure_bind (Nat.not_le.mpr hfilters) ?_
    refine (reads_text hshort hlength hutf8).bind
      ((reads_byte 1).bind_nil (Reads.ensure_bind ?_ (reads_pure _)))
    simp [htopic]
  have hloop := (Steps.single (by simp) hfilter).parse_untilEmpty
  have hparse : (V311.decodeBody limits 0x82).parse (beBytes 2 id.toNat ++ ([] ++
      (beBytes 2 topic.length ++ topic ++ [1]))) =
        .ok (.subscribe id.toNat [(topic, 1)], []) := by
    show (V311.decodeSubscribe limits).parse _ = _
    rw [V311.decodeSubscribe, (reads_id id.toNat_lt hid).parse_bind, List.nil_append,
      parse_bind_of_ok hloop, parse_ensure_bind (List.cons_ne_nil _ _)]
    rfl
  exact decode_encode hencode hlimit hparse rest

/-- The options of the client's subscriptions. -/
def subscriptionOptions : V5.SubscriptionOptions where
  qos := 1
  noLocal := false
  retainAsPublished := false
  retainHandling := 0

/-- An empty property field is read. -/
theorem reads_noProperties {context : V5.PropertyContext} :
    Reads (V5.properties context limits) [0] {} := by
  have hsteps : Steps (V5.property context limits) {} [] {} := .done _
  exact V5.reads_field hsteps rfl (Nat.zero_le _) (Nat.zero_le _)

theorem subscribe_decoded5 (h : subscribe .v5 id topic maximum = .ok frame)
    (hlimit : frame.length ≤ limits.maxMqttPacketSize) (hwithin : TopicWithin topic limits)
    (hfilters : 0 < limits.maxSubscriptionFiltersPerPacket)
    (hshared : ¬ (ascii "$share/").isPrefixOf topic) (rest : List UInt8) :
    V5.decode limits (frame ++ rest) =
      .ok (some (.subscribe id.toNat [(topic, subscriptionOptions)] {}, rest)) := by
  obtain ⟨hid, hvalid, hshort, hencode⟩ := subscribe_eq_ok h
  have htopic := hwithin.valid hvalid
  obtain ⟨hlength, hutf8⟩ := validTopic_text htopic
  have hfilter : Reads (V5.decodeSubscription limits [])
      (beBytes 2 topic.length ++ topic ++ [1]) [(topic, subscriptionOptions)] := by
    refine Reads.ensure_bind (Nat.not_le.mpr hfilters) ?_
    refine (reads_text hshort hlength hutf8).bind (Reads.ensure_bind hshared
      (Reads.ensure_bind htopic ((reads_byte 1).bind_nil
        (Reads.ensure_bind (by decide) (reads_pure _)))))
  have hloop := (Steps.single (by simp) hfilter).parse_untilEmpty
  have hparse : (V5.decodeBody limits 0x82).parse (beBytes 2 id.toNat ++ ([0] ++
      (beBytes 2 topic.length ++ topic ++ [1]))) =
        .ok (.subscribe id.toNat [(topic, subscriptionOptions)] {}, []) := by
    show (V5.decodeSubscribe limits).parse _ = _
    rw [V5.decodeSubscribe, (reads_id id.toNat_lt hid).parse_bind,
      reads_noProperties.parse_bind, parse_bind_of_ok hloop,
      parse_ensure_bind (List.cons_ne_nil _ _)]
    rfl
  exact decode_encode hencode hlimit hparse rest

/-! ## PUBLISH -/

/-- What `publish` checks and writes. -/
theorem publish_eq_ok {version : Version} {id : Option UInt16}
    (h : publish version topic payload qos id dup expiry maximum = .ok frame) :
    qos ≤ 2 ∧ validTopic topic 256 8 false ∧ topic.length < 2 ^ 16 ∧
      PacketIdFor qos (id.map UInt16.toNat) ∧
      (qos = 0 → dup = false) ∧
      encode (publishFlags qos false dup)
        (beBytes 2 topic.length ++ topic ++ packetIdBytes (id.map UInt16.toNat) ++
          publishProperties version expiry ++ payload) maximum = .ok frame := by
  simp only [publish, except_bind_eq_ok, check_eq_ok, not_or, not_not] at h
  obtain ⟨_, ⟨hqos, htopic, hid, hnonzero, hdup⟩, _, _, name, hname, hencode⟩ := h
  obtain ⟨rfl, hshort⟩ := putCounted_eq_ok.mp hname
  refine ⟨by omega, htopic, hshort, ⟨?_, ?_, ?_⟩, ?_, hencode⟩
  · rw [Option.isSome_map, ne_eq, hid]
    cases id <;> simp
  · intro n hn hzero
    obtain ⟨value, hvalue, rfl⟩ := Option.map_eq_some_iff.mp hn
    exact hnonzero (hvalue.trans (congrArg some (UInt16.toNat_inj.mp hzero)))
  · intro n hn
    obtain ⟨value, _, rfl⟩ := Option.map_eq_some_iff.mp hn
    exact value.toNat_lt
  · intro hzero
    simpa [hzero] using hdup

theorem publish_decoded311 {id : Option UInt16}
    (h : publish .v311 topic payload qos id dup expiry maximum = .ok frame)
    (hlimit : frame.length ≤ limits.maxMqttPacketSize) (hwithin : TopicWithin topic limits)
    (rest : List UInt8) :
    V311.decode limits (frame ++ rest) = .ok (some (.publish topic payload (UInt8.ofNat qos)
      (id.map UInt16.toNat) false dup, rest)) := by
  obtain ⟨hqos, hvalid, hshort, hid, _, hencode⟩ := publish_eq_ok h
  rw [publishProperties, List.append_nil] at hencode
  exact decode_encode hencode hlimit
    (V311.parse_publish hqos (hwithin.valid hvalid) hshort hid) rest

/-- The properties of a PUBLISH packet of MQTT 5. -/
def receivedExpiry (expiry : Option UInt32) : V5.Properties :=
  { messageExpiry := expiry.map UInt32.toNat }

/-- The expiry interval of a PUBLISH packet is read back. -/
theorem reads_publishProperties (hlimit : expiry.isSome → 5 ≤ limits.maxMqttPropertyBytes) :
    Reads (V5.properties .publish limits) (publishProperties .v5 expiry)
      (receivedExpiry expiry) := by
  cases expiry with
  | none => exact reads_noProperties
  | some seconds =>
    have hstep : Reads (V5.property .publish limits {}) (0x02 :: beBytes 4 seconds.toNat)
        { result := receivedExpiry (some seconds), seen := V5.seenBit 0x02 } :=
      V5.reads_property (by decide) (.inr rfl) rfl (V5.reads_messageExpiry seconds.toNat_lt)
    have hlength : (0x02 :: beBytes 4 seconds.toNat).length = 5 := by simp
    have hfield := V5.reads_field (.single (List.cons_ne_nil _ _) hstep) rfl
      (hlength ▸ hlimit rfl) (hlength ▸ by decide)
    rw [hlength] at hfield
    exact hfield

theorem publish_decoded5 {id : Option UInt16}
    (h : publish .v5 topic payload qos id dup expiry maximum = .ok frame)
    (hlimit : frame.length ≤ limits.maxMqttPacketSize) (hwithin : TopicWithin topic limits)
    (hproperties : expiry.isSome → 5 ≤ limits.maxMqttPropertyBytes) (rest : List UInt8) :
    V5.decode limits (frame ++ rest) = .ok (some (.publish topic payload (UInt8.ofNat qos)
      (id.map UInt16.toNat) false dup (receivedExpiry expiry), rest)) := by
  obtain ⟨hqos, hvalid, hshort, hid, hdup, hencode⟩ := publish_eq_ok h
  exact decode_encode hencode hlimit (V5.parse_publish hqos hdup (hwithin.valid hvalid) hshort hid
    (reads_publishProperties hproperties)) rest

end Netbaiot.Mqtt.Client
