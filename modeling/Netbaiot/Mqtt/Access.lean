import Netbaiot.Mqtt.Levels

/-!
# Devices reach only their own topics

A device publishes to topics below its root and subscribes to filters below it.  Identifiers hold
no separators and no wildcards, so the levels of the root tell the device.
-/

namespace Netbaiot.Mqtt

open Lib

variable {device device' : DeviceKey} {filter value level : Text} {limits : Limits}

/-- The levels of the root of a device. -/
def rootLevels (device : DeviceKey) : List Text :=
  [ascii "v1", ascii "t", device.tenantId.asStr, ascii "p", device.productId.asStr, ascii "d",
    device.deviceId.asStr]

theorem rootLevels_inj (h : rootLevels device = rootLevels device') : device = device' := by
  rcases device with ⟨⟨⟩, ⟨⟩, ⟨⟩⟩
  rcases device' with ⟨⟨⟩, ⟨⟩, ⟨⟩⟩
  simp_all [rootLevels]

theorem validIdentifier_rootLevels (device : DeviceKey) :
    ∀ level ∈ rootLevels device, validIdentifier level = true := by
  simp only [rootLevels, List.forall_mem_cons, Identifier.valid]
  decide

theorem slash_not_mem_identifier (h : validIdentifier level = true) : slash ∉ level := by
  simp only [validIdentifier, Bool.and_eq_true, List.all_eq_true] at h
  exact fun hmem => absurd (h.2 _ hmem) (by decide)

/-- Levels that are each followed by a separator are the first levels of the text. -/
theorem levels_flatMap {path : List Text} (h : ∀ level ∈ path, slash ∉ level) (suffix : Text) :
    levels (path.flatMap (· ++ [slash]) ++ suffix) = path ++ levels suffix := by
  induction path with
  | nil => rfl
  | cons level path ih =>
    rw [List.forall_mem_cons] at h
    simp [levels_append, levels_eq_singleton h.1, ih h.2]

/-- The root is the first levels of whatever is below it. -/
theorem levels_root (device : DeviceKey) (suffix : Text) :
    levels (deviceTopicRoot device ++ suffix) = rootLevels device ++ levels suffix := by
  rw [← levels_flatMap fun _ h => slash_not_mem_identifier (validIdentifier_rootLevels _ _ h)]
  simp only [deviceTopicRoot, rootLevels, List.flatMap_cons, List.flatMap_nil, List.append_assoc]
  rfl

theorem dropPrefix?_eq_some {text before after : Text} :
    text.dropPrefix? before = some after ↔ text = before ++ after := by
  simp [List.dropPrefix?_eq_some_iff]

/-- Stripping the root piece by piece accepts exactly the topics of the device. -/
theorem publishAcl_eq_ok {auth : AuthenticatedDevice} {kind : TopicKind} :
    publishAcl auth value = .ok kind ↔ value = topic auth.deviceKey kind ∧
      auth.permissions.publish = true ∧
      (kind = .up ∨ kind = .downAck ∧ auth.permissions.commands = true) := by
  have hkinds : ascii "up" ≠ ascii "down_ack" := by decide
  simp only [publishAcl, topic, deviceTopicRoot, Option.bind_eq_bind, Option.bind_eq_some_iff,
    dropPrefix?_eq_some, exists_eq_right, List.append_assoc]
  cases kind <;> split_ifs <;> simp_all [TopicKind.suffix]

theorem devicePublishTopic_iff {granted : Option Permissions} :
    devicePublishTopic device value granted = true ↔ ∃ kind, value = topic device kind ∧
      granted.all (·.publish) = true ∧
      (kind = .up ∨ kind = .downAck ∧ granted.all (·.commands) = true) := by
  have hkinds : ascii "up" ≠ ascii "down_ack" := by decide
  simp only [topic, ← dropPrefix?_eq_some, and_or_left, exists_or, existsAndEq, and_true,
    TopicKind.suffix, devicePublishTopic]
  split
  · simp_all
  · split_ifs <;> cases granted <;> simp_all

/-- A filter below a root only matches topics whose levels begin with the root. -/
theorem prefix_of_matchLevels {path filters topics : List Text}
    (hpath : ∀ level ∈ path, validIdentifier level = true)
    (h : matchLevels (path ++ filters) topics = true) : path <+: topics := by
  induction path generalizing topics with
  | nil => exact List.nil_prefix
  | cons level path ih =>
    rw [List.forall_mem_cons] at hpath
    have hplain : level ≠ hashLevel ∧ level ≠ plusLevel := by
      constructor <;> (rintro rfl; cases hpath.1)
    cases topics with
    | nil => simp [matchLevels, hplain] at h
    | cons topic topics =>
      have hstep : level = topic ∧ matchLevels (path ++ filters) topics = true := by
        simpa [matchLevels, hplain] using h
      exact List.cons_prefix_cons.mpr ⟨hstep.1, ih hpath.2 hstep.2⟩

/-- What a permitted filter matches is published by no other device, and is then admitted for
delivery to the session that subscribed. -/
theorem acl_isolates_devices {permissions : Permissions} {granted : Option Permissions}
    (hfilter : sessionSubscribeAcl device permissions filter limits = true)
    (hmatch : topicMatches filter value = true)
    (hpublish : devicePublishTopic device' value granted = true) :
    device' = device ∧ (validTopic value limits false = true →
      sessionDeliveryAcl device permissions value limits = true) := by
  obtain ⟨suffix, rfl, hcommands⟩ :
      ∃ suffix, filter = deviceTopicRoot device ++ suffix ∧ permissions.commands = true := by
    unfold sessionSubscribeAcl at hfilter
    split at hfilter
    · cases hfilter
    · cases hdrop : filter.dropPrefix? (deviceTopicRoot device) with
      | none => simp [hdrop] at hfilter
      | some suffix => exact ⟨suffix, dropPrefix?_eq_some.mp hdrop, by simp_all⟩
  obtain ⟨kind, hvalue, -⟩ := devicePublishTopic_iff.mp hpublish
  have hlevels := (topicMatches_iff.mp hmatch).2
  rw [hvalue, topic, levels_root, levels_root] at hlevels
  obtain ⟨rest, hrest⟩ := prefix_of_matchLevels (validIdentifier_rootLevels _) hlevels
  obtain rfl := rootLevels_inj (List.append_inj hrest rfl).1
  refine ⟨rfl, fun hvalid => ?_⟩
  have hsuffix : kind.suffix.isEmpty = false := by cases kind <;> rfl
  simp [sessionDeliveryAcl, hvalid, hcommands, dropPrefix?_eq_some.mpr hvalue, hsuffix]

/-- A device that subscribed to its own uplink. -/
theorem acl_isolates_own_uplink :
    sessionDeliveryAcl ⟨.t, .p, .a⟩ ⟨true, true⟩ (topic ⟨.t, .p, .a⟩ .up) .default = true :=
  (@acl_isolates_devices _ ⟨.t, .p, .a⟩ (topic ⟨.t, .p, .a⟩ .up) _ _ _ none (by decide +kernel)
    (by decide +kernel) (by decide +kernel)).2 (by decide +kernel)

/-- The three checks of a topic agree: the one on a connection, the one on what a session left
behind, and the one on a retained topic of which only the tenant is known. -/
theorem publish_checks_agree (value : Text) :
    (∀ auth, (∃ kind, publishAcl auth value = .ok kind) ↔
      devicePublishTopic auth.deviceKey value (some auth.permissions) = true) ∧
    ∀ tenant, retainedTopicOwnerAcl tenant value = true ↔
      ∃ device : DeviceKey, device.tenantId = tenant ∧
        devicePublishTopic device value none = true := by
  simp only [publishAcl_eq_ok, devicePublishTopic_iff, Option.all_some, Option.all_none, true_and,
    implies_true, and_true]
  refine fun tenant => ⟨fun h => ?_, ?_⟩
  · unfold retainedTopicOwnerAcl at h
    split at h
    · next v1 t tenantLevel p product d name last hlevels =>
      simp only [Identifier.new, Bool.and_eq_true, Bool.or_eq_true, decide_eq_true_eq,
        Option.isSome_dite] at h
      obtain ⟨⟨⟨⟨⟨⟨⟨rfl, rfl⟩, rfl⟩, rfl⟩, hproduct⟩, rfl⟩, hname⟩, hlast⟩ := h
      have hmem : last ∈ levels value := by simp [hlevels]
      have hvalue :
          value = deviceTopicRoot ⟨tenant, ⟨product, hproduct⟩, ⟨name, hname⟩⟩ ++ last := by
        rw [← levels_inj, levels_root, hlevels,
          levels_eq_singleton (slash_not_mem_of_mem_levels hmem)]
        rfl
      rcases hlast with rfl | rfl
      · exact ⟨_, rfl, .up, hvalue, .inl rfl⟩
      · exact ⟨_, rfl, .downAck, hvalue, .inr rfl⟩
    · cases h
  · rintro ⟨device, rfl, kind, rfl, hkind⟩
    have hlast : levels kind.suffix = [kind.suffix] := by
      rcases hkind with rfl | rfl <;> decide
    simp only [retainedTopicOwnerAcl, topic, levels_root, rootLevels, hlast, Identifier.new]
    rcases hkind with rfl | rfl <;>
      simp [TopicKind.suffix, device.productId.valid, device.deviceId.valid]

end Netbaiot.Mqtt
