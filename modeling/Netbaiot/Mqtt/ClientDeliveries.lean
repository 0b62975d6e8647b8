import Netbaiot.Mqtt.ClientRequests

/-!
# Deliveries of the gateway at the device client

The client checks the properties of a PUBLISH packet with a table of its own and keeps the
expiry interval only.  What the gateway writes passes these checks if it is within the limits
of the client.
-/

namespace Netbaiot.Mqtt.Client

open Lib Parser

variable {limits : Limits} {bytes : List UInt8}

/-! ## Properties -/

/-- A property that has not been seen yet, or may be repeated, is read with its value. -/
theorem reads_property {context : Context} {id : UInt8} {state : PropertyState} {out : Properties}
    (hid : id < 43) (hcount : state.count < limits.propertyCount)
    (hseen : id = 0x26 ∨ id ∉ state.seen)
    (hvalue : Reads (propertyValue context limits id state.out) bytes out) :
    Reads (property context limits state) (id :: bytes)
      { out, seen := id :: state.seen, count := state.count + 1 } := by
  refine Reads.ensure_bind (by omega) ((reads_byte id).bind (Reads.ensure_bind hid ?_))
  refine Reads.ensure_bind ?_ (hvalue.bind_nil (reads_pure _))
  rintro ⟨hagain, hsingle, _⟩
  exact hseen.elim hsingle fun hnew => hnew hagain

/-- How many properties an optional property is. -/
def count {α : Type} (value : Option α) : ℕ := if value.isSome then 1 else 0

/-- None of the properties is among those seen. -/
def unseen (seen ids : List UInt8) : Bool := ids.all fun id => !seen.contains id

/-- An optional property is read if it is there; properties with other identifiers remain
unseen. -/
theorem steps_optional (limits : Limits) (state : PropertyState) (later : List UInt8) {α : Type}
    (set : Properties → Option α → Properties) {id : UInt8} {put : α → Except Error (List UInt8)}
    {value : Option α} (hput : V5.putOptional id put value = .ok bytes) (hid : id < 43)
    (hnone : set state.out none = state.out) (hseen : unseen state.seen (id :: later))
    (hother : unseen [id] later) (hcount : state.count + count value ≤ limits.propertyCount)
    (hread : ∀ a written, value = some a → put a = .ok written →
      Reads (propertyValue .publish limits id state.out) written (set state.out (some a))) :
    ∃ state', Steps (property .publish limits) state bytes state' ∧
      state'.out = set state.out value ∧ state'.count = state.count + count value ∧
      unseen state'.seen later := by
  simp only [unseen, List.all_eq_true, Bool.not_eq_true', List.contains_eq_mem,
    decide_eq_false_iff_not] at hseen hother ⊢
  cases value with
  | none =>
    cases hput
    exact ⟨state, .done state, hnone.symm, rfl,
      fun other hmem => hseen other (List.mem_cons_of_mem _ hmem)⟩
  | some a =>
    obtain ⟨written, hwritten, hbytes⟩ := except_bind_eq_ok.mp hput
    cases hbytes
    refine ⟨_, .single (List.cons_ne_nil _ _) (reads_property hid hcount
      (.inr (hseen id List.mem_cons_self)) (hread a written rfl hwritten)), rfl, rfl, ?_⟩
    intro other hmem
    rw [List.mem_cons, not_or]
    exact ⟨fun heq => hother other hmem (List.mem_singleton.mpr heq),
      hseen other (List.mem_cons_of_mem _ hmem)⟩

/-- User properties are read and dropped. -/
theorem steps_userProperties {pairs : List (Text × Text)}
    (hput : V5.putUserProperties pairs = .ok bytes)
    (hpairs : ∀ pair ∈ pairs, (validUtf8 pair.1 ∧ pair.1.length ≤ limits.properties) ∧
      validUtf8 pair.2 ∧ pair.2.length ≤ limits.properties)
    (state : PropertyState) (hcount : state.count + pairs.length ≤ limits.propertyCount) :
    ∃ state', Steps (property .publish limits) state bytes state' ∧ state'.out = state.out := by
  induction pairs generalizing bytes state with
  | nil =>
    cases hput
    exact ⟨state, .done state, rfl⟩
  | cons pair rest ih =>
    obtain ⟨key, value⟩ := pair
    simp only [V5.putUserProperties, except_bind_eq_ok] at hput
    obtain ⟨keyBytes, hkey, valueBytes, hvalue, more, hmore, hput⟩ := hput
    cases hput
    obtain ⟨rfl, hkeyShort⟩ := putCounted_eq_ok.mp hkey
    obtain ⟨rfl, hvalueShort⟩ := putCounted_eq_ok.mp hvalue
    rw [List.length_cons] at hcount
    obtain ⟨⟨hkeyUtf8, hkeyMax⟩, hvalueUtf8, hvalueMax⟩ := hpairs (key, value) List.mem_cons_self
    have hpair : Reads (propertyValue .publish limits 0x26 state.out)
        ((beBytes 2 key.length ++ key) ++ (beBytes 2 value.length ++ value)) state.out :=
      (reads_text hkeyShort hkeyMax hkeyUtf8).bind
        ((reads_text hvalueShort hvalueMax hvalueUtf8).bind_nil (reads_pure _))
    have hstep := reads_property (by decide) (by omega) (.inl rfl) hpair
    obtain ⟨state', hsteps, hout⟩ := ih hmore
      (fun pair hmem => hpairs pair (List.mem_cons_of_mem _ hmem))
      { out := state.out, seen := 0x26 :: state.seen, count := state.count + 1 }
      (by dsimp only; omega)
    exact ⟨state', .step (List.cons_ne_nil _ _) hstep hsteps, hout⟩

/-- What the gateway writes is within the limits of the client: the block of properties, their
number, and the topic for a response. -/
structure Fits (limits : Limits) (p : V5.Properties) : Prop where
  bytes : p.publishBytes ≤ limits.properties
  count : count p.payloadFormat + count p.messageExpiry + count p.contentType +
    count p.responseTopic + count p.correlationData + p.userProperties.length ≤ limits.propertyCount
  responseTopic : ∀ value, p.responseTopic = some value →
    value.length ≤ limits.topic ∧ (levels value).length ≤ 8

/-- Every user property is shorter than all of them together. -/
theorem userProperty_le {pairs : List (Text × Text)} {pair : Text × Text} (h : pair ∈ pairs) :
    pair.1.length + pair.2.length + 5 ≤
      (pairs.map fun pair => pair.1.length + pair.2.length + 5).sum :=
  List.single_le_sum (fun _ _ => Nat.zero_le _) _ (List.mem_map_of_mem h)

/-- The written properties of a PUBLISH packet are read one after the other. -/
theorem steps_putProperties {gateway : Netbaiot.Limits} {p : V5.Properties}
    (hp : p.Admitted gateway) (hfits : Fits limits p) (hput : V5.putProperties p = .ok bytes) :
    ∃ state, Steps (property .publish limits) {} bytes state ∧
      state.out = { messageExpiry := p.messageExpiry } := by
  obtain ⟨hbytes, hcount, htopic⟩ := hfits
  simp only [V5.putProperties, except_bind_eq_ok] at hput
  obtain ⟨format, hformat, expiry, hexpiry, content, hcontent, response, hresponse, correlation,
    hcorrelation, user, huserBytes, heq⟩ := hput
  cases heq
  obtain ⟨formatted, hstepFormat, oformat, cformat, hseen⟩ := steps_optional limits {}
    [0x02, 0x03, 0x08, 0x09] (fun out _ => out) hformat (by decide) rfl (by decide) (by decide)
    (by simp only; omega) fun value written hvalue hwritten => by
      cases hwritten
      exact ((reads_byte value).checked (UInt8.not_lt.mpr (hp.payloadFormat value hvalue))).bind_nil
        (reads_pure _)
  obtain ⟨expiring, hstepExpiry, oexpiry, cexpiry, hseen⟩ := steps_optional limits formatted
    [0x03, 0x08, 0x09] (fun out value => { out with messageExpiry := value }) hexpiry (by decide)
    (by rw [oformat]) hseen (by decide) (by simp only at cformat; omega)
    fun value written hvalue hwritten => by
      cases hwritten
      exact (reads_number (hp.messageExpiry value hvalue)).bind_nil (reads_pure _)
  obtain ⟨typed, hstepContent, ocontent, ccontent, hseen⟩ := steps_optional limits expiring
    [0x08, 0x09] (fun out _ => out) hcontent (by decide) rfl hseen (by decide)
    (by simp only at cformat; omega) fun value written hvalue hwritten => by
      obtain ⟨rfl, hshort⟩ := putCounted_eq_ok.mp hwritten
      have hmax : value.length ≤ limits.properties := by
        simp only [V5.Properties.publishBytes, hvalue, Option.map_some, Option.getD_some] at hbytes
        omega
      exact (reads_text hshort hmax (hp.contentType value hvalue).1).bind_nil (reads_pure _)
  obtain ⟨answered, hstepResponse, oresponse, cresponse, hseen⟩ := steps_optional limits typed
    [0x09] (fun out _ => out) hresponse (by decide) rfl hseen (by decide)
    (by simp only at cformat; omega) fun value written hvalue hwritten => by
      obtain ⟨rfl, hshort⟩ := putCounted_eq_ok.mp hwritten
      obtain ⟨hmax, hdepth⟩ := htopic value hvalue
      have hvalid := (hp.responseTopic value hvalue).1
      exact (reads_text hshort hmax (validTopic_text hvalid).2).bind_nil
        (Reads.ensure_bind (validTopic_within hvalid hmax hdepth) (reads_pure _))
  obtain ⟨correlated, hstepCorrelation, ocorrelation, ccorrelation, _⟩ := steps_optional limits
    answered [] (fun out _ => out) hcorrelation (by decide) rfl hseen (by decide)
    (by simp only at cformat; omega) fun value written hvalue hwritten => by
      obtain ⟨rfl, hshort⟩ := putCounted_eq_ok.mp hwritten
      have hmax : value.length ≤ limits.properties := by
        simp only [V5.Properties.publishBytes, hvalue, Option.map_some, Option.getD_some] at hbytes
        omega
      exact (reads_counted hshort hmax).bind_nil (reads_pure _)
  have hpairs : ∀ pair ∈ p.userProperties, (validUtf8 pair.1 ∧ pair.1.length ≤ limits.properties) ∧
      validUtf8 pair.2 ∧ pair.2.length ≤ limits.properties := by
    intro pair hpair
    have hle := userProperty_le hpair
    obtain ⟨⟨hkey, _⟩, hvalue, _⟩ := hp.userProperties pair hpair
    unfold V5.Properties.publishBytes at hbytes
    exact ⟨⟨hkey, by omega⟩, hvalue, by omega⟩
  obtain ⟨state, hstepUser, ouser⟩ := steps_userProperties huserBytes hpairs correlated
    (by simp only at cformat; omega)
  refine ⟨state, ((((hstepFormat.trans hstepExpiry).trans hstepContent).trans hstepResponse).trans
    hstepCorrelation).trans hstepUser, ?_⟩
  rw [ouser, ocorrelation, oresponse, ocontent, oexpiry, oformat]

/-- The property field of a PUBLISH packet of the gateway is read. -/
theorem reads_properties {gateway : Netbaiot.Limits} {p : V5.Properties} (hp : p.Admitted gateway)
    (hfits : Fits limits p) (hput : V5.putProperties p = .ok bytes)
    (hmax : bytes.length ≤ limits.properties) (hsmall : bytes.length ≤ 268435455) :
    Reads (properties .publish limits) (variableInteger bytes.length ++ bytes)
      { messageExpiry := p.messageExpiry } := by
  obtain ⟨state, hsteps, hout⟩ := steps_putProperties hp hfits hput
  have hfield : Reads (within (untilEmpty (property .publish limits) {}) bytes) [] state :=
    fun _ => parse_within_eq_ok.mpr ⟨rfl, [], hsteps.parse_untilEmpty⟩
  refine (reads_variableInteger hmax hsmall).bind ((reads_take rfl).bind_nil ?_)
  rw [← hout]
  exact hfield.bind (reads_pure _)

/-! ## PUBLISH -/

/-- What is written as the body of a PUBLISH packet is read as this packet. -/
theorem parse_publish {version : Version} {topic : Text} {payload field : List UInt8} {qos : ℕ}
    {packetId : Option ℕ} {retain dup : Bool} {p : Properties} (hqos : qos ≤ 1)
    (htopic : validTopic topic limits.topic 8 false) (hshort : topic.length < 2 ^ 16)
    (hid : PacketIdFor qos packetId)
    (hproperties : Reads (versionProperties version .publish limits) field p)
    (halias : p.topicAlias = none) (hpayload : payload.length ≤ limits.payload) :
    (decodeBody version limits (publishFlags qos retain dup)).parse
        (beBytes 2 topic.length ++ topic ++ packetIdBytes packetId ++ field ++ payload) =
      .ok (.publish topic payload (UInt8.ofNat qos) packetId dup p, payload) := by
  have hqos2 : qos ≤ 2 := hqos.trans (by decide)
  obtain ⟨hkind, hlevel, _, hflag⟩ := publishFlags_spec retain dup hqos2
  have hlow : ¬ UInt8.ofNat qos > 1 := by
    interval_cases qos <;> decide
  have hpresent : UInt8.ofNat qos = 1 ↔ packetId.isSome := by
    rw [hid.present]
    interval_cases qos <;> decide
  simp only [validTopic, Bool.and_eq_true, decide_eq_true_eq] at htopic
  have hreadId :
      Reads (present (UInt8.ofNat qos = 1) Reader.id) (packetIdBytes packetId) packetId :=
    reads_optional hpresent fun id heq => reads_id (hid.short id heq) (hid.nonzero id heq)
  rw [decodeBody, hkind]
  show (decodePublish version limits _).parse _ = _
  rw [decodePublish, hlevel, hflag, parse_ensure_bind hlow, List.append_assoc, List.append_assoc,
    (reads_text hshort htopic.1.1.1.2 htopic.1.2).parse_bind,
    parse_ensure_bind (by
      simpa only [validTopic, Bool.and_eq_true, decide_eq_true_eq] using htopic),
    hreadId.parse_bind, hproperties.parse_bind, parse_ensure_bind (by rw [halias]; rfl),
    parse_remaining_bind, parse_ensure_bind (by omega)]
  rfl

end Netbaiot.Mqtt.Client
