import Mathlib.Data.List.Infix
import Netbaiot.Lib.Bytes
import Netbaiot.Limits

/-!
# Topics, filters and access control

A topic is a UTF-8 text cut into levels at each `/`.  A filter may use the wildcard
`+` for one level and `#` for all remaining ones.  Every device owns the topics below
its own root; the access tests compare a topic or a filter with that root.
-/

namespace Netbaiot.Mqtt

open Lib

/-- A text is its UTF-8 bytes. -/
abbrev Text := List UInt8

/-- The byte of the level separator. -/
def slash : UInt8 := 47

/-- The levels of a topic or filter. -/
def levels (text : Text) : List Text := text.splitOn slash

/-- The wildcard for one level. -/
def plusLevel : Text := ascii "+"

/-- The wildcard for all remaining levels. -/
def hashLevel : Text := ascii "#"

/-! ## Text validation -/

/-- A byte that continues a multi-byte character. -/
def isContinuation (b : UInt8) : Bool := b &&& 0xC0 == 0x80

/-- The characters of a UTF-8 text, or nothing if the bytes are not well formed: overlong
forms, surrogates and values beyond the last character are refused. -/
def fromUtf8 : List UInt8 → Option (List ℕ)
  | [] => some []
  | a :: rest =>
      if a < 0x80 then (fromUtf8 rest).map (a.toNat :: ·)
      else
        match rest with
        | [] => none
        | b :: rest =>
            let two := (a &&& 0x1F).toNat * 64 + (b &&& 0x3F).toNat
            if a &&& 0xE0 == 0xC0 then
              if isContinuation b && 0x80 ≤ two then (fromUtf8 rest).map (two :: ·) else none
            else
              match rest with
              | [] => none
              | c :: rest =>
                  let three := ((a &&& 0x0F).toNat * 64 + (b &&& 0x3F).toNat) * 64 +
                    (c &&& 0x3F).toNat
                  if a &&& 0xF0 == 0xE0 then
                    if isContinuation b && isContinuation c && 0x800 ≤ three &&
                        !(0xD800 ≤ three && three ≤ 0xDFFF) then
                      (fromUtf8 rest).map (three :: ·)
                    else none
                  else
                    match rest with
                    | [] => none
                    | d :: rest =>
                        let four := (((a &&& 0x07).toNat * 64 + (b &&& 0x3F).toNat) * 64 +
                          (c &&& 0x3F).toNat) * 64 + (d &&& 0x3F).toNat
                        if a &&& 0xF8 == 0xF0 && isContinuation b && isContinuation c &&
                            isContinuation d && 0x10000 ≤ four && four ≤ 0x10FFFF then
                          (fromUtf8 rest).map (four :: ·)
                        else none

/-- A character that protocol texts must not contain: controls and noncharacters. -/
def forbiddenCharacter (code : ℕ) : Bool :=
  code == 0 || (0x0001 ≤ code && code ≤ 0x001f) || (0x007f ≤ code && code ≤ 0x009f) ||
    (0xfdd0 ≤ code && code ≤ 0xfdef) || 0xfffe ≤ code % 0x10000

/-- The text test of the wire codec. -/
def validUtf8 (bytes : Text) : Bool :=
  match fromUtf8 bytes with
  | some characters => !characters.any forbiddenCharacter
  | none => false

/-- Wildcards stand alone in their level, and `#` only in the last one. -/
def validFilterLevels : List Text → Bool
  | [] => true
  | level :: rest =>
      if (level.contains 43 && level != plusLevel) ||
          (level.contains 35 && (level != hashLevel || !rest.isEmpty)) then false
      else validFilterLevels rest

def validFilter (filter : Text) : Bool := validFilterLevels (levels filter)

/-- The topic test of the wire codec, for a filter or for a plain topic. -/
def validTopic (topic : Text) (limits : Limits) (filter : Bool) : Bool :=
  !topic.isEmpty && topic.length ≤ limits.maxTopicBytes &&
    (levels topic).length ≤ limits.maxTopicDepth && validUtf8 topic &&
    if filter then validFilter topic else !(topic.contains 43 || topic.contains 35)

/-! ## Matching -/

/-- Compare a filter with a topic level by level. -/
def matchLevels : List Text → List Text → Bool
  | [], topics => topics.isEmpty
  | filter :: filters, topics =>
      if filter = hashLevel then filters.isEmpty
      else
        match topics with
        | [] => false
        | topic :: topics =>
            if filter = plusLevel ∨ filter = topic then matchLevels filters topics else false

/-- A filter that begins with a wildcard does not see topics that begin with `$`. -/
def dollarHidden (filter topic : Text) : Bool :=
  topic.head? == some 36 &&
    (filter == hashLevel || filter == plusLevel || (plusLevel ++ [slash]).isPrefixOf filter)

/-- Whether a filter matches a topic. -/
def topicMatches (filter topic : Text) : Bool :=
  if dollarHidden filter topic then false else matchLevels (levels filter) (levels topic)

/-! ## Access control -/

/-- The kinds of device topics. -/
inductive TopicKind where
  | up
  | upAck
  | down
  | downAck
deriving DecidableEq

/-- The last level of a device topic. -/
def TopicKind.suffix : TopicKind → Text
  | .up => ascii "up"
  | .upAck => ascii "up_ack"
  | .down => ascii "down"
  | .downAck => ascii "down_ack"

variable (device : DeviceKey)

/-- The root of the topics of a device. -/
def deviceTopicRoot : Text :=
  ascii "v1/t/" ++ device.tenantId.asStr ++ ascii "/p/" ++ device.productId.asStr ++
    ascii "/d/" ++ device.deviceId.asStr ++ ascii "/"

/-- The topic of a device for one kind of message. -/
def topic (kind : TopicKind) : Text := deviceTopicRoot device ++ kind.suffix

/-- Which topics a device may publish to. -/
def publishAcl (auth : AuthenticatedDevice) (value : Text) : Except Error TopicKind :=
  if !auth.permissions.publish then .error .forbidden
  else
    let suffix := do
      let value ← value.dropPrefix? (ascii "v1/t/")
      let value ← value.dropPrefix? auth.deviceKey.tenantId.asStr
      let value ← value.dropPrefix? (ascii "/p/")
      let value ← value.dropPrefix? auth.deviceKey.productId.asStr
      let value ← value.dropPrefix? (ascii "/d/")
      let value ← value.dropPrefix? auth.deviceKey.deviceId.asStr
      value.dropPrefix? (ascii "/")
    if suffix = some (ascii "up") then .ok .up
    else if suffix = some (ascii "down_ack") ∧ auth.permissions.commands then .ok .downAck
    else .error .forbidden

/-- Which filters a session may subscribe to: those below the root of its device. -/
def sessionSubscribeAcl (permissions : Permissions) (filter : Text) (limits : Limits) : Bool :=
  if !validTopic filter limits true || !permissions.commands then false
  else ((filter.dropPrefix? (deviceTopicRoot device)).map fun suffix => !suffix.isEmpty).getD false

/-- Which topics may be delivered to a session. -/
def sessionDeliveryAcl (permissions : Permissions) (topic : Text) (limits : Limits) : Bool :=
  if !validTopic topic limits false || !permissions.commands then false
  else ((topic.dropPrefix? (deviceTopicRoot device)).map fun suffix => !suffix.isEmpty).getD false

/-- Which topics a device may have published to; without permissions, under any of them. -/
def devicePublishTopic (topic : Text) (permissions : Option Permissions) : Bool :=
  match topic.dropPrefix? (deviceTopicRoot device) with
  | none => false
  | some suffix =>
      if suffix = ascii "up" then permissions.all fun value => value.publish
      else if suffix = ascii "down_ack" then
        permissions.all fun value => value.publish && value.commands
      else false

/-- Whether a topic is one to which some device of the tenant may publish. -/
def retainedTopicOwnerAcl (tenant : TenantId) (topic : Text) : Bool :=
  match levels topic with
  | [v1, t, tenantLevel, p, product, d, device, kind] =>
      v1 = ascii "v1" && t = ascii "t" && tenantLevel = tenant.asStr && p = ascii "p" &&
        (Identifier.new product).isSome && d = ascii "d" && (Identifier.new device).isSome &&
        (kind = ascii "up" || kind = ascii "down_ack")
  | _ => false

end Netbaiot.Mqtt
