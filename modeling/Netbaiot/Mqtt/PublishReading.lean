import Netbaiot.Lib.Reads
import Netbaiot.Mqtt.PublishSize

/-!
# Reading PUBLISH packets back

Each decoder reads the fields of a PUBLISH packet in the order in which the encoder of the same
version writes them.  The properties of MQTT 5 are read one by one; what has to be kept is
which identifiers have been seen and how many bytes of user properties have been read.
-/

namespace Netbaiot.Mqtt

open Lib Parser

variable {maximum n qos : ℕ} {dup retain : Bool} {topic : Text} {limits : Limits}
  {bytes frame payload value : List UInt8} {packetId : Option ℕ} {context : PropertyContext}
  {state : PropertyState}

/-- The first byte of a PUBLISH packet holds its type, its QoS and its flags. -/
theorem publishFlags_spec (retain dup : Bool) (h : qos ≤ 2) :
    publishFlags qos retain dup >>> 4 = 3 ∧
      (publishFlags qos retain dup >>> 1) &&& 3 = UInt8.ofNat qos ∧
      (publishFlags qos retain dup &&& 1 != 0) = retain ∧
      (publishFlags qos retain dup &&& 8 != 0) = dup := by
  have hall : ∀ (qos : Fin 3) (retain dup : Bool), publishFlags qos retain dup >>> 4 = 3 ∧
      (publishFlags qos retain dup >>> 1) &&& 3 = UInt8.ofNat qos ∧
      (publishFlags qos retain dup &&& 1 != 0) = retain ∧
      (publishFlags qos retain dup &&& 8 != 0) = dup := by decide +kernel
  exact hall ⟨qos, by omega⟩ retain dup

theorem ofNat_qos_eq_zero (h : qos ≤ 2) : UInt8.ofNat qos = 0 ↔ qos = 0 := by
  have hall : ∀ qos : Fin 3, UInt8.ofNat qos = 0 ↔ (qos : ℕ) = 0 := by decide
  exact hall ⟨qos, by omega⟩

/-- A PUBLISH packet of QoS 0 is no duplicate. -/
theorem dup_of_validFlags
    (hflags : validFlags (publishFlags qos retain dup >>> 4) (publishFlags qos retain dup &&& 0x0f))
    (hzero : qos = 0) : dup = false := by
  have hall : ∀ retain dup : Bool,
      validFlags (publishFlags 0 retain dup >>> 4) (publishFlags 0 retain dup &&& 0x0f) →
      dup = false := by decide +kernel
  rw [hzero] at hflags
  exact hall retain dup hflags

/-- A valid topic is a text within the topic limit. -/
theorem validTopic_text {filter : Bool} (h : validTopic topic limits filter) :
    topic.length ≤ limits.maxTopicBytes ∧ validUtf8 topic := by
  simp only [validTopic, Bool.and_eq_true, decide_eq_true_eq] at h
  exact ⟨h.1.1.1.2, h.1.2⟩

/-- A packet identifier that a packet may have: present exactly above QoS 0. -/
structure PacketIdFor (qos : ℕ) (packetId : Option ℕ) : Prop where
  present : packetId.isSome ↔ qos ≠ 0
  nonzero : ∀ id, packetId = some id → id ≠ 0
  short : ∀ id, packetId = some id → id < 2 ^ 16

section Fields

variable {ε : Type} {e e' : ε}

/-- A text after its length is read back. -/
theorem reads_text {text : Text} {e'' : ε} (hshort : text.length < 2 ^ 16)
    (hmax : text.length ≤ maximum) (hutf8 : validUtf8 text) :
    Reads (checked (counted 2 maximum e e' e) (validUtf8 ·) e'') (beBytes 2 text.length ++ text)
      text :=
  (reads_counted hshort hmax).checked hutf8

theorem reads_id {id : ℕ} (hshort : id < 2 ^ 16) (hnonzero : id ≠ 0) :
    Reads (checked (number 2 e) (· ≠ 0) e') (beBytes 2 id) id :=
  (reads_number hshort).checked hnonzero

/-- A packet identifier is read back, if there is one. -/
theorem reads_packetId {flag : Prop} [Decidable flag] (h : PacketIdFor qos packetId)
    (hflag : flag ↔ qos ≠ 0) :
    Reads (present flag (checked (number 2 e) (· ≠ 0) e')) (packetIdBytes packetId) packetId :=
  reads_optional (hflag.trans h.present.symm) fun id hid =>
    reads_id (h.short id hid) (h.nonzero id hid)

/-- A variable byte integer is read back. -/
theorem reads_variableInteger {refused : WireError → ε} (hmax : n ≤ maximum)
    (hsmall : n ≤ 268435455) :
    Reads (takeVariableInteger e refused maximum) (variableInteger n) n := by
  intro rest
  show takeVariableInteger e refused maximum (variableInteger n ++ rest) = _
  simp only [takeVariableInteger, remainingLength_variableInteger hmax hsmall, List.drop_left]

end Fields

/-! ## MQTT 3.1.1 -/

namespace V311

/-- What is written as the body of a PUBLISH packet is read as this packet. -/
theorem parse_publish (hqos : qos ≤ 2) (htopic : validTopic topic limits false)
    (hshort : topic.length < 2 ^ 16) (hid : PacketIdFor qos packetId) :
    (decodeBody limits (publishFlags qos retain dup)).parse
        (beBytes 2 topic.length ++ topic ++ packetIdBytes packetId ++ payload) =
      .ok (.publish topic payload (UInt8.ofNat qos) packetId retain dup, payload) := by
  obtain ⟨hkind, hlevel, hretain, hdup⟩ := publishFlags_spec retain dup hqos
  obtain ⟨hlength, hutf8⟩ := validTopic_text htopic
  have hpresent : (publishFlags qos retain dup >>> 1) &&& 3 > 0 ↔ qos ≠ 0 := by
    rw [hlevel, gt_iff_lt, UInt8.pos_iff_ne_zero, ne_eq, ofNat_qos_eq_zero hqos]
  rw [decodeBody, hkind]
  show (decodePublish limits _).parse _ = _
  rw [decodePublish, List.append_assoc, (reads_text hshort hlength hutf8).parse_bind,
    parse_ensure_bind htopic, (reads_packetId hid hpresent).parse_bind, parse_remaining_bind,
    hlevel, hretain, hdup]
  rfl

/-- What `publish` writes. -/
theorem publish_eq_ok (h : publish topic payload qos packetId retain dup limits = .ok frame) :
    qos ≤ 2 ∧ validTopic topic limits false ∧ topic.length < 2 ^ 16 ∧
      encode (publishFlags qos retain dup)
        (beBytes 2 topic.length ++ topic ++ packetIdBytes packetId ++ payload)
        limits.maxMqttPacketSize = .ok frame := by
  simp only [publish, except_bind_eq_ok, check_eq_ok, mapError_eq_ok, not_or, not_not] at h
  obtain ⟨_, ⟨hqos, htopic, _⟩, _, hshort, _, _, _, _, hencode⟩ := h
  exact ⟨by omega, htopic, hshort, hencode⟩

/-- An encoded PUBLISH packet is decoded again. -/
theorem decode_publish_encoded (hid : PacketIdFor qos packetId)
    (h : publish topic payload qos packetId retain dup limits = .ok frame) (rest : List UInt8) :
    decode limits (frame ++ rest) =
      .ok (some (.publish topic payload (UInt8.ofNat qos) packetId retain dup, rest)) := by
  obtain ⟨hqos, htopic, hshort, hencode⟩ := publish_eq_ok h
  exact decode_encode hencode (encode_eq_ok hencode).2.2.2.2 (parse_publish hqos htopic hshort hid)
    rest

end V311

/-! ## MQTT 5 -/

namespace V5

/-! ### Properties one by one -/

/-- The bit of a property among those seen. -/
def seenBit (id : UInt8) : UInt64 := 1 <<< id.toUInt64

/-- None of the properties is among those seen. -/
def unseen (seen : UInt64) (ids : List UInt8) : Bool := ids.all fun id => seen &&& seenBit id == 0

theorem or_and_eq_zero {a b c : UInt64} (ha : a &&& c = 0) (hb : b &&& c = 0) :
    (a ||| b) &&& c = 0 := by
  rw [← UInt64.toBitVec_inj] at ha hb ⊢
  simp only [UInt64.toBitVec_and, UInt64.toBitVec_or] at ha hb ⊢
  rw [BitVec.and_or_distrib_right, ha, hb]
  rfl

theorem unseen_or {seen more : UInt64} {ids : List UInt8} (h : unseen seen ids)
    (hmore : unseen more ids) : unseen (seen ||| more) ids := by
  simp only [unseen, List.all_eq_true, beq_iff_eq] at h hmore ⊢
  exact fun id hid => or_and_eq_zero (h id hid) (hmore id hid)

/-- A property that has not been seen yet, or may be repeated, is read with its value. -/
theorem reads_property {id : UInt8} {state' : PropertyState} (hid : id < 64)
    (hseen : id = 0x26 ∨ state.seen &&& seenBit id = 0)
    (hallowed : propertyAllowed context id = .ok true)
    (hvalue : Reads (propertyValue limits id { state with seen := state.seen ||| seenBit id })
      bytes state') :
    Reads (property context limits state) (id :: bytes) state' := by
  refine (reads_byte id).bind (Reads.ensure_bind (UInt8.not_le.mpr hid) ?_)
  refine Reads.ensure_bind ?_ ?_
  · rintro ⟨hsingle, hagain⟩
    exact hseen.elim hsingle hagain
  · simp only [hallowed]
    exact hvalue

/-- An optional property is read if it is there; properties with other identifiers remain
unseen. -/
theorem steps_optional (limits : Limits) (state : PropertyState) (later : List UInt8) {α : Type}
    (set : Properties → Option α → Properties) {id : UInt8} {put : α → Except Error (List UInt8)}
    {value : Option α} (hput : putOptional id put value = .ok bytes) (hid : id < 64)
    (hallowed : propertyAllowed .publish id = .ok true)
    (hnone : set state.result none = state.result) (hseen : unseen state.seen (id :: later))
    (hother : unseen (seenBit id) later)
    (hread : ∀ a written state, value = some a → put a = .ok written →
      Reads (propertyValue limits id state) written
        { state with result := set state.result (some a) }) :
    ∃ state', Steps (property .publish limits) state bytes state' ∧
      state'.result = set state.result value ∧ state'.userBytes = state.userBytes ∧
      unseen state'.seen later := by
  rw [unseen, List.all_cons, Bool.and_eq_true, beq_iff_eq] at hseen
  obtain ⟨hnew, hlater⟩ := hseen
  cases value with
  | none =>
    cases hput
    exact ⟨state, .done state, hnone.symm, rfl, hlater⟩
  | some a =>
    obtain ⟨written, hwritten, hbytes⟩ := except_bind_eq_ok.mp hput
    cases hbytes
    have hread' := hread a written { state with seen := state.seen ||| seenBit id } rfl hwritten
    refine ⟨_, .single (List.cons_ne_nil _ _)
      (reads_property hid (.inr hnew) hallowed hread'), rfl, rfl, unseen_or hlater hother⟩

section Values

variable {limits : Limits} {state : PropertyState} {written : List UInt8}

theorem reads_payloadFormat {value : UInt8} (h : value ≤ 1) :
    Reads (propertyValue limits 0x01 state) [value]
      { state with result := { state.result with payloadFormat := some value } } :=
  (reads_byte value).bind (Reads.ensure_bind (UInt8.not_lt.mpr h) (reads_pure _))

theorem reads_messageExpiry {value : ℕ} (h : value < 2 ^ 32) :
    Reads (propertyValue limits 0x02 state) (beBytes 4 value)
      { state with result := { state.result with messageExpiry := some value } } :=
  (reads_number h).bind_nil (reads_pure _)

theorem reads_contentType {value : Text} (hput : putString value = .ok written)
    (hmax : value.length ≤ limits.maxMqttContentTypeBytes) (hutf8 : validUtf8 value) :
    Reads (propertyValue limits 0x03 state) written
      { state with result := { state.result with contentType := some value } } := by
  obtain ⟨rfl, hshort⟩ := putCounted_eq_ok.mp hput
  exact (reads_text hshort hmax hutf8).bind_nil (reads_pure _)

theorem reads_responseTopic {value : Text} (hput : putString value = .ok written)
    (hmax : value.length ≤ limits.maxMqttResponseTopicBytes)
    (htopic : validTopic value limits false) :
    Reads (propertyValue limits 0x08 state) written
      { state with result := { state.result with responseTopic := some value } } := by
  obtain ⟨rfl, hshort⟩ := putCounted_eq_ok.mp hput
  exact (reads_text hshort hmax (validTopic_text htopic).2).bind_nil
    (Reads.ensure_bind htopic (reads_pure _))

theorem reads_correlationData (hput : putBinary value = .ok written)
    (hmax : value.length ≤ limits.maxMqttCorrelationDataBytes) :
    Reads (propertyValue limits 0x09 state) written
      { state with result := { state.result with correlationData := some value } } := by
  obtain ⟨rfl, hshort⟩ := putCounted_eq_ok.mp hput
  exact (reads_counted hshort hmax).bind_nil (reads_pure _)

end Values

/-- The bytes the decoder counts for user properties. -/
def userBytes (pairs : List (Text × Text)) : ℕ :=
  (pairs.map fun pair => pair.1.length + pair.2.length + 4).sum

/-- User properties are read in their order. -/
theorem steps_userProperties {pairs : List (Text × Text)}
    (hput : putUserProperties pairs = .ok bytes)
    (hutf8 : ∀ pair ∈ pairs, validUtf8 pair.1 ∧ validUtf8 pair.2)
    (hcount : state.result.userProperties.length + pairs.length ≤ limits.maxMqttUserProperties)
    (hbytes : state.userBytes + userBytes pairs ≤ limits.maxMqttUserPropertyBytes) :
    ∃ state', Steps (property context limits) state bytes state' ∧ state'.result =
      { state.result with userProperties := state.result.userProperties ++ pairs } := by
  induction pairs generalizing bytes state with
  | nil =>
    cases hput
    exact ⟨state, .done state, by rw [List.append_nil]⟩
  | cons pair rest ih =>
    obtain ⟨key, value⟩ := pair
    simp only [putUserProperties, except_bind_eq_ok] at hput
    obtain ⟨keyBytes, hkey, valueBytes, hvalue, more, hmore, hput⟩ := hput
    cases hput
    obtain ⟨rfl, hkeyShort⟩ := putCounted_eq_ok.mp hkey
    obtain ⟨rfl, hvalueShort⟩ := putCounted_eq_ok.mp hvalue
    obtain ⟨hkeyUtf8, hvalueUtf8⟩ := hutf8 (key, value) List.mem_cons_self
    simp only [userBytes, List.map_cons, List.sum_cons, List.length_cons] at hbytes hcount
    let next : PropertyState :=
      { result := { state.result with
          userProperties := state.result.userProperties ++ [(key, value)] }
        seen := state.seen ||| seenBit 0x26
        userBytes := state.userBytes + key.length + value.length + 4 }
    have hstep : Reads (property context limits state)
        (0x26 :: ((beBytes 2 key.length ++ key) ++ (beBytes 2 value.length ++ value))) next := by
      have hroom : ¬ state.result.userProperties.length ≥ limits.maxMqttUserProperties := by omega
      have hfits : ¬ state.userBytes + key.length + value.length + 4 >
          limits.maxMqttUserPropertyBytes := by omega
      refine reads_property (by decide) (.inl rfl) rfl (Reads.ensure_bind hroom ?_)
      refine (reads_text hkeyShort (by omega) hkeyUtf8).bind ?_
      refine (reads_text hvalueShort (by omega) hvalueUtf8).bind_nil ?_
      exact Reads.ensure_bind hfits (reads_pure next)
    have hcount' : next.result.userProperties.length + rest.length ≤
        limits.maxMqttUserProperties := by
      simp only [next, List.length_append, List.length_singleton]
      omega
    have hbytes' : next.userBytes + userBytes rest ≤ limits.maxMqttUserPropertyBytes := by
      simp only [next, userBytes]
      omega
    obtain ⟨state', hsteps, hresult⟩ := ih hmore
      (fun pair hpair => hutf8 pair (List.mem_cons_of_mem _ hpair)) hcount' hbytes'
    refine ⟨state', .step (List.cons_ne_nil _ _) hstep hsteps, ?_⟩
    rw [hresult]
    simp only [next, List.append_assoc, List.singleton_append]

theorem putUserProperties_short {pairs : List (Text × Text)}
    (h : putUserProperties pairs = .ok bytes) :
    ∀ pair ∈ pairs, pair.1.length < 2 ^ 16 ∧ pair.2.length < 2 ^ 16 := by
  induction pairs generalizing bytes with
  | nil => simp
  | cons pair rest ih =>
    simp only [putUserProperties, except_bind_eq_ok] at h
    obtain ⟨_, hkey, _, hvalue, _, hmore, _⟩ := h
    rw [List.forall_mem_cons]
    exact ⟨⟨(putCounted_eq_ok.mp hkey).2, (putCounted_eq_ok.mp hvalue).2⟩, ih hmore⟩

/-- The written properties of a PUBLISH packet are read one after the other. -/
theorem steps_putProperties {p : Properties} (hp : p.Admitted limits)
    (huser : userBytes p.userProperties ≤ limits.maxMqttUserPropertyBytes)
    (hput : putProperties p = .ok bytes) :
    ∃ state, Steps (property .publish limits) {} bytes state ∧ state.result = p.publishPart := by
  simp only [putProperties, except_bind_eq_ok] at hput
  obtain ⟨format, hformat, expiry, hexpiry, content, hcontent, response, hresponse, correlation,
    hcorrelation, user, huserBytes, hbytes⟩ := hput
  cases hbytes
  obtain ⟨formatted, hstepFormat, rformat, uformat, hseen⟩ := steps_optional limits {}
    [0x02, 0x03, 0x08, 0x09] (fun result value => { result with payloadFormat := value }) hformat
    (by decide) rfl rfl (by decide) (by decide) fun value written state hvalue hwritten => by
      cases hwritten
      exact reads_payloadFormat (hp.payloadFormat value hvalue)
  obtain ⟨expiring, hstepExpiry, rexpiry, uexpiry, hseen⟩ := steps_optional limits formatted
    [0x03, 0x08, 0x09] (fun result value => { result with messageExpiry := value }) hexpiry
    (by decide) rfl (by rw [rformat]) hseen (by decide)
    fun value written state hvalue hwritten => by
      cases hwritten
      exact reads_messageExpiry (hp.messageExpiry value hvalue)
  obtain ⟨typed, hstepContent, rcontent, ucontent, hseen⟩ := steps_optional limits expiring
    [0x08, 0x09] (fun result value => { result with contentType := value }) hcontent
    (by decide) rfl (by rw [rexpiry, rformat]) hseen (by decide)
    fun value written state hvalue hwritten =>
      reads_contentType hwritten (hp.contentType value hvalue).2.1 (hp.contentType value hvalue).1
  obtain ⟨answered, hstepResponse, rresponse, uresponse, hseen⟩ := steps_optional limits typed
    [0x09] (fun result value => { result with responseTopic := value }) hresponse
    (by decide) rfl (by rw [rcontent, rexpiry, rformat]) hseen (by decide)
    fun value written state hvalue hwritten =>
      reads_responseTopic hwritten (hp.responseTopic value hvalue).2.1
        (hp.responseTopic value hvalue).1
  obtain ⟨correlated, hstepCorrelation, rcorrelation, ucorrelation, _⟩ := steps_optional limits
    answered [] (fun result value => { result with correlationData := value }) hcorrelation
    (by decide) rfl (by rw [rresponse, rcontent, rexpiry, rformat]) hseen (by decide)
    fun value written state hvalue hwritten =>
      reads_correlationData hwritten (hp.correlationData value hvalue).1
  have hresult : correlated.result = { p.publishPart with userProperties := [] } := by
    rw [rcorrelation, rresponse, rcontent, rexpiry, rformat]
    rfl
  have hcount : correlated.result.userProperties.length + p.userProperties.length ≤
      limits.maxMqttUserProperties := by
    rw [hresult]
    simpa using hp.userCount
  have hbytes : correlated.userBytes + userBytes p.userProperties ≤
      limits.maxMqttUserPropertyBytes := by
    rw [ucorrelation, uresponse, ucontent, uexpiry, uformat]
    simpa using huser
  obtain ⟨state, hstepUser, ruser⟩ := steps_userProperties huserBytes (fun pair hpair =>
    ⟨(hp.userProperties pair hpair).1.1, (hp.userProperties pair hpair).2.1⟩) hcount hbytes
  refine ⟨state, ((((hstepFormat.trans hstepExpiry).trans hstepContent).trans hstepResponse).trans
    hstepCorrelation).trans hstepUser, ?_⟩
  rw [ruser, hresult]
  rfl

/-- A property field is read if its properties are. -/
theorem reads_field (hsteps : Steps (property context limits) {} bytes state)
    (hauthentication : state.result.authenticationData = none)
    (hmax : bytes.length ≤ limits.maxMqttPropertyBytes) (hsmall : bytes.length ≤ 268435455) :
    Reads (properties context limits) (variableInteger bytes.length ++ bytes) state.result := by
  have hfield : Reads (within (untilEmpty (property context limits) {}) bytes) [] state :=
    fun _ => parse_within_eq_ok.mpr ⟨rfl, [], hsteps.parse_untilEmpty⟩
  refine (reads_variableInteger hmax hsmall).bind ((reads_take rfl).bind_nil ?_)
  refine hfield.bind (Reads.ensure_bind ?_ (reads_pure _))
  simp [hauthentication]

/-- The written properties of a PUBLISH packet are read back. -/
theorem reads_properties {p : Properties} (hp : p.Admitted limits)
    (huser : userBytes p.userProperties ≤ limits.maxMqttUserPropertyBytes)
    (hpart : p.publishPart = p) (hput : putProperties p = .ok bytes)
    (hmax : bytes.length ≤ limits.maxMqttPropertyBytes) (hsmall : bytes.length ≤ 268435455) :
    Reads (properties .publish limits) (variableInteger bytes.length ++ bytes) p := by
  obtain ⟨state, hsteps, hresult⟩ := steps_putProperties hp huser hput
  have hfield := reads_field hsteps (by rw [hresult]; rfl) hmax hsmall
  rwa [hresult, hpart] at hfield

/-- What is written as the body of a PUBLISH packet is read as this packet. -/
theorem parse_publish {field : List UInt8} {p : Properties} (hqos : qos ≤ 2)
    (hdup : qos = 0 → dup = false) (htopic : validTopic topic limits false)
    (hshort : topic.length < 2 ^ 16) (hid : PacketIdFor qos packetId)
    (hproperties : Reads (properties .publish limits) field p) :
    (decodeBody limits (publishFlags qos retain dup)).parse
        (beBytes 2 topic.length ++ topic ++ packetIdBytes packetId ++ field ++ payload) =
      .ok (.publish topic payload (UInt8.ofNat qos) packetId retain dup p, payload) := by
  obtain ⟨hkind, hlevel, hretain, hflag⟩ := publishFlags_spec retain dup hqos
  obtain ⟨hlength, hutf8⟩ := validTopic_text htopic
  have hpresent : (publishFlags qos retain dup >>> 1) &&& 3 ≠ 0 ↔ qos ≠ 0 := by
    rw [hlevel, ne_eq, ofNat_qos_eq_zero hqos]
  have hrepeated : ¬ ((publishFlags qos retain dup >>> 1) &&& 3 = 0 ∧
      publishFlags qos retain dup &&& 8 ≠ 0) := by
    rintro ⟨hzero, hset⟩
    rw [hlevel, ofNat_qos_eq_zero hqos] at hzero
    rw [← bne_iff_ne, hflag, hdup hzero] at hset
    cases hset
  rw [decodeBody, hkind]
  show (decodePublish limits _).parse _ = _
  rw [decodePublish, parse_ensure_bind hrepeated, List.append_assoc, List.append_assoc,
    (reads_text hshort hlength hutf8).parse_bind, parse_ensure_bind htopic,
    (reads_packetId hid hpresent).parse_bind, hproperties.parse_bind, parse_remaining_bind,
    hlevel, hretain, hflag]
  rfl

/-- What `publish` writes. -/
theorem publish_eq_ok {packet : OutboundPublish} (h : publish packet maximum = .ok frame) :
    packet.qos ≤ 2 ∧ packet.topic.length < 2 ^ 16 ∧
      ∃ encoded, putProperties packet.properties = .ok encoded ∧
        encode (publishFlags packet.qos packet.retain packet.dup)
          (beBytes 2 packet.topic.length ++ packet.topic ++ packetIdBytes packet.packetId ++
            (variableInteger encoded.length ++ encoded) ++ packet.payload) maximum = .ok frame := by
  simp only [publish, except_bind_eq_ok, check_eq_ok, mapError_eq_ok, not_or] at h
  obtain ⟨_, ⟨hqos, _⟩, _, htopic, encoded, hencoded, hencode⟩ := h
  obtain ⟨rfl, hshort⟩ := putCounted_eq_ok.mp htopic
  rw [List.append_assoc _ (variableInteger _)] at hencode
  exact ⟨by omega, hshort, encoded, hencoded, hencode⟩

/-- Only properties with short strings are written. -/
theorem putProperties_short {p : Properties} (h : putProperties p = .ok bytes) : p.Short := by
  have hoptional : ∀ {id : UInt8} {value : Option (List UInt8)} {bytes : List UInt8},
      putOptional id putBinary value = .ok bytes → ∀ a, value = some a → a.length < 2 ^ 16 := by
    rintro id value bytes hput a rfl
    obtain ⟨written, hwritten, _⟩ := except_bind_eq_ok.mp hput
    exact (putCounted_eq_ok.mp hwritten).2
  simp only [putProperties, except_bind_eq_ok] at h
  obtain ⟨_, _, _, _, content, hcontent, response, hresponse, correlation, hcorrelation, user,
    huser, _⟩ := h
  exact ⟨hoptional hcontent, hoptional hresponse, hoptional hcorrelation,
    putUserProperties_short huser⟩

/-- An encoded PUBLISH packet is decoded again. -/
theorem decode_publish_encoded (packet : OutboundPublish)
    (htopic : validTopic packet.topic limits false) (hid : PacketIdFor packet.qos packet.packetId)
    (hp : packet.properties.Short → packet.properties.Admitted limits)
    (hpart : packet.properties.publishPart = packet.properties)
    (huser : userBytes packet.properties.userProperties ≤ limits.maxMqttUserPropertyBytes)
    (hbytes : packet.properties.publishBytes ≤ limits.maxMqttPropertyBytes)
    (h : publish packet maximum = .ok frame) (hlimit : frame.length ≤ limits.maxMqttPacketSize)
    (rest : List UInt8) :
    decode limits (frame ++ rest) = .ok (some (.publish packet.topic packet.payload
      (UInt8.ofNat packet.qos) packet.packetId packet.retain packet.dup packet.properties,
      rest)) := by
  obtain ⟨hqos, hshort, encoded, hencoded, hencode⟩ := publish_eq_ok h
  obtain ⟨_, hbody, hflags, _⟩ := encode_eq_ok hencode
  have hstrings := putProperties_short hencoded
  obtain ⟨encoded', hencoded', hlength⟩ := putProperties_ok hstrings
  cases hencoded.symm.trans hencoded'
  have hsmall : encoded.length ≤ 268435455 := by
    simp only [List.length_append] at hbody
    omega
  have hproperties := reads_properties (hp hstrings) huser hpart hencoded (hlength ▸ hbytes) hsmall
  exact decode_encode hencode hlimit
    (parse_publish hqos (dup_of_validFlags hflags) htopic hshort hid hproperties) rest

end V5

end Netbaiot.Mqtt
