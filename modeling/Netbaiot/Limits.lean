import Netbaiot.Lib.Op
import Netbaiot.Lib.Word
import Netbaiot.Protocol

/-!
# Resource limits

The one validated record of every in-process ceiling.  `Limits.validate` first
bounds the management fields, then every scalar by the range of its field, then
compares related ceilings with each other.
-/

namespace Netbaiot

open Lib

/-- Every in-process resource ceiling of the gateway, with the value it has when nothing is
configured. -/
structure Limits where
  maxConnections : ℕ := 256
  maxDeviceConnectionsPerProtocol : ℕ := 192
  maxConnectionsPerIp : ℕ := 32
  maxConnectionsPerDevice : ℕ := 2
  maxConnectionsPerTenant : ℕ := 64
  maxTlsHandshakes : ℕ := 64
  maxMqttPacketSize : ℕ := 65536
  maxMqttPropertyBytes : ℕ := 4096
  maxMqttUserProperties : ℕ := 16
  maxMqttUserPropertyBytes : ℕ := 2048
  maxMqttContentTypeBytes : ℕ := 256
  maxMqttResponseTopicBytes : ℕ := 256
  maxMqttCorrelationDataBytes : ℕ := 1024
  maxHttpBodySize : ℕ := 65536
  maxHttpHeaderBytes : ℕ := 8192
  maxHttpHeaders : ℕ := 32
  maxTcpFrameSize : ℕ := 65536
  maxUdpDatagramSize : ℕ := 1200
  maxUdpInflightDatagrams : ℕ := 64
  maxClientIdBytes : ℕ := 64
  maxUsernameBytes : ℕ := 64
  maxPasswordBytes : ℕ := 128
  maxTopicBytes : ℕ := 256
  maxTopicDepth : ℕ := 8
  maxSubscriptionsPerConnection : ℕ := 2
  maxSubscriptionsPerSession : ℕ := 32
  maxSubscriptionsPerDevice : ℕ := 64
  maxSubscriptionsPerTenant : ℕ := 128
  maxSubscriptions : ℕ := 512
  maxSubscriptionFiltersPerPacket : ℕ := 16
  maxInflightQos1PerConnection : ℕ := 32
  maxInflightQos1PerSession : ℕ := 32
  maxInflightQos2PerSession : ℕ := 32
  maxInflightQos1PerTenant : ℕ := 4096
  maxInflightQos2PerTenant : ℕ := 4096
  maxPersistentSessions : ℕ := 4096
  maxPersistentSessionsPerTenant : ℕ := 512
  maxOfflineMessagesPerSession : ℕ := 128
  maxOfflineBytesPerSession : ℕ := 1048576
  maxOfflineMessagesPerTenant : ℕ := 4096
  maxOfflineBytesPerTenant : ℕ := 33554432
  maxOfflineMessages : ℕ := 16384
  maxOfflineBytes : ℕ := 134217728
  maxRetainedMessages : ℕ := 4096
  maxRetainedBytes : ℕ := 67108864
  maxRetainedMessagesPerTenant : ℕ := 512
  maxRetainedBytesPerTenant : ℕ := 8388608
  maxRetainedMessageBytes : ℕ := 65536
  maxWillPayloadBytes : ℕ := 65536
  maxMqttSessionStateBytes : ℕ := 2097152
  maxMqttSessionStateBytesPerTenant : ℕ := 33554432
  globalMqttSessionBytes : ℕ := 134217728
  mqttSessionIdleTtlMs : ℕ := 86400000
  maxReadBufferPerConnection : ℕ := 65540
  maxWriteBufferPerConnection : ℕ := 65536
  maxOutboundMessagesPerConnection : ℕ := 64
  maxOutboundBytesPerConnection : ℕ := 262144
  maxOutboundBytesPerTenant : ℕ := 2097152
  maxOutboundBytes : ℕ := 8388608
  globalConnectionLogicalBytes : ℕ := 134217728
  maxConnectionBytesPerTenant : ℕ := 67108864
  connectionMemoryReservation : ℕ := 16384
  maxIngress : ℕ := 16
  maxIngressPerTenant : ℕ := 4
  maxIngressPerDevice : ℕ := 1
  maxIngressBytes : ℕ := 2097152
  maxIngressWaiters : ℕ := 16
  maxIngressWaitBytes : ℕ := 2097152
  ingressWaitTimeoutMs : ℕ := 25
  maxPendingCommandsPerDevice : ℕ := 16
  maxPendingCommandsPerTenant : ℕ := 128
  maxPendingCommands : ℕ := 1024
  maxCommandBytes : ℕ := 16384
  commandDedupMaxEntries : ℕ := 4096
  commandDedupTtlMs : ℕ := 300000
  maxDevices : ℕ := 1024
  maxDevicesPerTenant : ℕ := 128
  presenceTtlMs : ℕ := 3600000
  maxReplayEntries : ℕ := 1024
  maxReplayEntriesPerDevice : ℕ := 2
  maxReplayEntriesPerTenant : ℕ := 256
  udpClockSkewMs : ℕ := 30000
  rateEntries : ℕ := 1024
  requestsPerSecond : ℕ := 512
  requestsPerIpSecond : ℕ := 32
  messagesPerDeviceSecond : ℕ := 16
  messagesPerTenantSecond : ℕ := 128
  authCacheMaxEntries : ℕ := 4096
  authCacheMaxBytes : ℕ := 4194304
  authCacheMaxWaiters : ℕ := 256
  maxAuthProviderRequests : ℕ := 16
  authPositiveTtlMs : ℕ := 300000
  authNegativeTtlMs : ℕ := 5000
  managementAuthMaxSubjectBytes : ℕ := 128
  managementAuthMaxScopes : ℕ := 32
  managementAuthMaxScopeBytes : ℕ := 512
  managementAuthMaxResourceEntries : ℕ := 128
  managementAuthMaxResourceBytes : ℕ := 8192
  managementApiKeyMaxEntries : ℕ := 128
  managementApiKeyMaxBytes : ℕ := 32768
  managementJwksMaxKeys : ℕ := 32
  managementJwksMaxBytes : ℕ := 65536
  managementJwksTtlMs : ℕ := 300000
  managementJwksRefreshMinIntervalMs : ℕ := 30000
  managementJwtMaxBytes : ℕ := 16384
  controlMaxProducts : ℕ := 4096
  controlMaxBytes : ℕ := 16777216
  maxSinks : ℕ := 32
  maxSinksPerTenant : ℕ := 8
  maxRoutingFilters : ℕ := 256
  maxFanoutPerEvent : ℕ := 8
  globalEventMaxCount : ℕ := 16384
  globalEventMaxBytes : ℕ := 67108864
  eventQueueMaxCountPerTenant : ℕ := 16384
  eventQueueMaxBytesPerTenant : ℕ := 67108864
  sinkQueueMaxCount : ℕ := 4096
  sinkQueueMaxBytes : ℕ := 16777216
  sinkDeliveryConcurrency : ℕ := 8
  sinkTimeoutMs : ℕ := 5000
  sinkMaxAttempts : ℕ := 5
  sinkMaxAgeMs : ℕ := 3600000
  retryBaseMs : ℕ := 100
  retryMaxMs : ℕ := 30000
  connectTimeoutMs : ℕ := 10000
  authenticationTimeoutMs : ℕ := 5000
  packetReadTimeoutMs : ℕ := 30000
  writeTimeoutMs : ℕ := 10000
  idleTimeoutMs : ℕ := 120000
  requestTimeoutMs : ℕ := 15000
  externalTimeoutMs : ℕ := 5000
  shutdownDrainTimeoutMs : ℕ := 20000
  shutdownTimeoutMs : ℕ := 30000
  replayTtlMs : ℕ := 120000
  commandTtlMs : ℕ := 300000
  spoolMaxRecords : ℕ := 100000
  spoolMaxBytes : ℕ := 268435456
  spoolSegmentMaxBytes : ℕ := 67108864
  spoolRecordMaxBytes : ℕ := 1048576
  mqttRecoveryMaxBytes : ℕ := 202195044

/-- The ceilings used when nothing is configured. -/
def Limits.default : Limits := {}

/-- The ranges that `limit_scalar_minimum` and `limit_scalar_maximum` tell apart by field name. -/
inductive ScalarRange where
  | ordinary
  | aggregateBytes
  | connectionReservation
  | tcpFrame

/-- The least value a field of this range may hold. -/
def ScalarRange.minimum : ScalarRange → ℕ
  | .ordinary | .aggregateBytes => 1
  | .connectionReservation => 16384
  | .tcpFrame => 42

/-- The greatest value a field of this range may hold.  Aggregate byte ceilings may exceed
4 GiB but stay exact as JSON integers. -/
def ScalarRange.maximum : ScalarRange → ℕ
  | .aggregateBytes => 2 ^ 53 - 1
  | .ordinary | .connectionReservation | .tcpFrame => 2 ^ 32 - 1

variable (l : Limits)

/-- The fields of a range. -/
def Limits.scalars : ScalarRange → List ℕ
  | .ordinary =>
      [l.maxConnections, l.maxDeviceConnectionsPerProtocol, l.maxConnectionsPerIp,
        l.maxConnectionsPerDevice, l.maxConnectionsPerTenant, l.maxTlsHandshakes,
        l.maxMqttPacketSize, l.maxMqttPropertyBytes, l.maxMqttUserProperties,
        l.maxMqttUserPropertyBytes, l.maxMqttContentTypeBytes, l.maxMqttResponseTopicBytes,
        l.maxMqttCorrelationDataBytes, l.maxHttpBodySize, l.maxHttpHeaderBytes, l.maxHttpHeaders,
        l.maxUdpDatagramSize, l.maxUdpInflightDatagrams, l.maxClientIdBytes, l.maxUsernameBytes,
        l.maxPasswordBytes, l.maxTopicBytes, l.maxTopicDepth, l.maxSubscriptionsPerConnection,
        l.maxSubscriptionsPerSession, l.maxSubscriptionsPerDevice, l.maxSubscriptionsPerTenant,
        l.maxSubscriptions, l.maxSubscriptionFiltersPerPacket, l.maxInflightQos1PerConnection,
        l.maxInflightQos1PerSession, l.maxInflightQos2PerSession, l.maxInflightQos1PerTenant,
        l.maxInflightQos2PerTenant, l.maxPersistentSessions, l.maxPersistentSessionsPerTenant,
        l.maxOfflineMessagesPerSession, l.maxOfflineBytesPerSession,
        l.maxOfflineMessagesPerTenant, l.maxOfflineMessages, l.maxRetainedMessages,
        l.maxRetainedMessagesPerTenant, l.maxRetainedMessageBytes, l.maxWillPayloadBytes,
        l.maxMqttSessionStateBytes, l.mqttSessionIdleTtlMs, l.maxReadBufferPerConnection,
        l.maxWriteBufferPerConnection, l.maxOutboundMessagesPerConnection,
        l.maxOutboundBytesPerConnection, l.maxIngress, l.maxIngressPerTenant,
        l.maxIngressPerDevice, l.maxIngressBytes, l.maxIngressWaiters, l.maxIngressWaitBytes,
        l.ingressWaitTimeoutMs, l.maxPendingCommandsPerDevice, l.maxPendingCommandsPerTenant,
        l.maxPendingCommands, l.maxCommandBytes, l.commandDedupMaxEntries, l.commandDedupTtlMs,
        l.maxDevices, l.maxDevicesPerTenant, l.presenceTtlMs, l.maxReplayEntries,
        l.maxReplayEntriesPerDevice, l.maxReplayEntriesPerTenant, l.udpClockSkewMs,
        l.rateEntries, l.requestsPerSecond, l.requestsPerIpSecond, l.messagesPerDeviceSecond,
        l.messagesPerTenantSecond, l.authCacheMaxEntries, l.authCacheMaxWaiters,
        l.maxAuthProviderRequests, l.authPositiveTtlMs, l.authNegativeTtlMs,
        l.managementAuthMaxSubjectBytes, l.managementAuthMaxScopes,
        l.managementAuthMaxScopeBytes, l.managementAuthMaxResourceEntries,
        l.managementAuthMaxResourceBytes, l.managementApiKeyMaxEntries,
        l.managementApiKeyMaxBytes, l.managementJwksMaxKeys, l.managementJwksMaxBytes,
        l.managementJwksTtlMs, l.managementJwksRefreshMinIntervalMs, l.managementJwtMaxBytes,
        l.controlMaxProducts, l.controlMaxBytes, l.maxSinks, l.maxSinksPerTenant,
        l.maxRoutingFilters, l.maxFanoutPerEvent, l.globalEventMaxCount,
        l.eventQueueMaxCountPerTenant, l.sinkQueueMaxCount, l.sinkDeliveryConcurrency,
        l.sinkTimeoutMs, l.sinkMaxAttempts, l.sinkMaxAgeMs, l.retryBaseMs, l.retryMaxMs,
        l.connectTimeoutMs, l.authenticationTimeoutMs, l.packetReadTimeoutMs, l.writeTimeoutMs,
        l.idleTimeoutMs, l.requestTimeoutMs, l.externalTimeoutMs, l.shutdownDrainTimeoutMs,
        l.shutdownTimeoutMs, l.replayTtlMs, l.commandTtlMs, l.spoolMaxRecords,
        l.spoolSegmentMaxBytes, l.spoolRecordMaxBytes]
  | .aggregateBytes =>
      [l.maxOfflineBytesPerTenant, l.maxOfflineBytes, l.maxRetainedBytes,
        l.maxRetainedBytesPerTenant, l.maxMqttSessionStateBytesPerTenant,
        l.globalMqttSessionBytes, l.maxOutboundBytesPerTenant, l.maxOutboundBytes,
        l.globalConnectionLogicalBytes, l.maxConnectionBytesPerTenant, l.authCacheMaxBytes,
        l.globalEventMaxBytes, l.eventQueueMaxBytesPerTenant, l.sinkQueueMaxBytes,
        l.spoolMaxBytes, l.mqttRecoveryMaxBytes]
  | .connectionReservation => [l.connectionMemoryReservation]
  | .tcpFrame => [l.maxTcpFrameSize]

/-- Conservative upper bound of a compact recovery image; `none` on overflow. -/
def Limits.mqttRecoveryUpperBound : Option ℕ := do
  let bytes ← checkedAdd 64 l.globalMqttSessionBytes l.maxRetainedBytes
  let bytes ← checkedAdd 64 bytes (← checkedMul 64 l.maxRetainedMessages 64)
  let bytes ← checkedAdd 64 bytes (← checkedMul 64 l.maxPersistentSessions 128)
  let willOwner ← checkedAdd 64 256 l.maxClientIdBytes
  let bytes ← checkedAdd 64 bytes (← checkedMul 64 l.maxConnections willOwner)
  checkedAdd 64 bytes 100

/-- The largest frame any device protocol may carry. -/
def Limits.maxFrame : ℕ :=
  max (max l.maxMqttPacketSize l.maxHttpBodySize) l.maxTcpFrameSize

/-- The largest frame a reader may have to hold, with the TCP length envelope. -/
def Limits.maxReadFrame : ℕ :=
  max (max (l.maxTcpFrameSize + 4) l.maxMqttPacketSize) l.maxHttpBodySize

/-- Whether some management ceiling is too large. -/
def Limits.managementViolation : Bool :=
  l.managementAuthMaxSubjectBytes > 256 || l.managementAuthMaxScopes > 64
    || l.managementAuthMaxScopeBytes > 1024 || l.managementAuthMaxResourceEntries > 1024
    || l.managementAuthMaxResourceBytes > 65536 || l.managementApiKeyMaxEntries > 1024
    || l.managementApiKeyMaxBytes > 262144 || l.managementJwksMaxKeys > 128
    || l.managementJwksMaxBytes > 262144 || l.managementJwksTtlMs > 3600000
    || l.managementJwksRefreshMinIntervalMs > l.managementJwksTtlMs
    || l.managementJwtMaxBytes > 65536

/-- Whether two related ceilings are in the wrong order. -/
def Limits.hierarchyViolation : Bool :=
  l.maxFrame > 1048576 || l.maxTlsHandshakes > 65536
    || l.maxMqttPropertyBytes > l.maxMqttPacketSize
    || l.maxMqttUserPropertyBytes > l.maxMqttPropertyBytes
    || l.maxMqttContentTypeBytes > l.maxMqttPropertyBytes
    || l.maxMqttResponseTopicBytes > l.maxMqttPropertyBytes
    || l.maxMqttCorrelationDataBytes > l.maxMqttPropertyBytes
    || l.maxMqttUserProperties > l.maxMqttPropertyBytes || l.maxUdpDatagramSize > 1200
    || l.maxUdpInflightDatagrams > 1024 || l.maxAuthProviderRequests > 1024
    || l.maxHttpHeaderBytes < 8192 || l.maxHttpHeaderBytes > l.maxFrame || l.maxHttpHeaders > 128
    || l.maxConnectionsPerIp > l.maxConnections
    || l.maxConnectionsPerDevice > l.maxConnectionsPerTenant
    || l.maxConnectionsPerTenant > l.maxConnections
    || l.maxIngressPerDevice > l.maxIngressPerTenant || l.maxIngressPerTenant > l.maxIngress
    || l.maxIngressWaiters > l.maxConnections
    || l.maxOutboundBytesPerConnection > l.maxOutboundBytesPerTenant
    || l.maxOutboundBytesPerTenant > l.maxOutboundBytes
    || l.maxSubscriptionsPerConnection > l.maxSubscriptionsPerDevice
    || l.maxSubscriptionsPerConnection > l.maxSubscriptionsPerSession
    || l.maxSubscriptionsPerSession > l.maxSubscriptionsPerDevice
    || l.maxSubscriptionsPerSession > l.maxSubscriptionsPerTenant
    || l.maxSubscriptionsPerDevice > l.maxSubscriptionsPerTenant
    || l.maxSubscriptionsPerTenant > l.maxSubscriptions
    || l.maxInflightQos1PerConnection > l.maxInflightQos1PerSession
    || l.maxInflightQos1PerSession > l.maxInflightQos1PerTenant
    || l.maxInflightQos2PerSession > l.maxInflightQos2PerTenant
    || l.maxOutboundMessagesPerConnection
        < saturatingAdd 64 l.maxInflightQos1PerSession l.maxInflightQos2PerSession
    || l.maxPersistentSessionsPerTenant > l.maxPersistentSessions
    || l.maxOfflineMessagesPerSession > l.maxOfflineMessagesPerTenant
    || l.maxOfflineMessagesPerTenant > l.maxOfflineMessages
    || l.maxOfflineBytesPerSession > l.maxOfflineBytesPerTenant
    || l.maxOfflineBytesPerTenant > l.maxOfflineBytes
    || l.maxRetainedMessagesPerTenant > l.maxRetainedMessages
    || l.maxRetainedBytesPerTenant > l.maxRetainedBytes
    || l.maxRetainedMessageBytes > l.maxMqttPacketSize
    || l.maxWillPayloadBytes > l.maxMqttPacketSize
    || l.maxMqttSessionStateBytes > l.globalMqttSessionBytes
    || l.maxMqttSessionStateBytes > l.maxMqttSessionStateBytesPerTenant
    || l.maxMqttSessionStateBytesPerTenant > l.globalMqttSessionBytes
    || l.maxReplayEntriesPerDevice > l.maxReplayEntriesPerTenant
    || l.maxReplayEntriesPerTenant > l.maxReplayEntries || l.maxDevicesPerTenant > l.maxDevices
    || l.maxFanoutPerEvent > l.maxSinks || l.maxSinksPerTenant > l.maxSinks
    || l.sinkDeliveryConcurrency > l.sinkQueueMaxCount || l.retryBaseMs > l.retryMaxMs
    || l.authNegativeTtlMs ≥ l.authPositiveTtlMs || l.sinkTimeoutMs > l.sinkMaxAgeMs
    || l.spoolRecordMaxBytes > l.spoolSegmentMaxBytes || l.spoolSegmentMaxBytes > l.spoolMaxBytes
    || (l.mqttRecoveryUpperBound.all fun bound => decide (l.mqttRecoveryMaxBytes < bound))
    || l.maxReadBufferPerConnection < l.maxReadFrame
    || l.globalConnectionLogicalBytes < l.connectionMemoryReservation
    || l.maxConnectionBytesPerTenant < l.connectionMemoryReservation
    || l.maxIngressBytes < l.maxFrame || l.maxIngressWaitBytes < l.maxFrame
    || l.maxCommandBytes > l.maxWriteBufferPerConnection || l.commandDedupMaxEntries > 65536
    || l.commandDedupTtlMs > 86400000 || l.replayTtlMs ≤ saturatingMul 64 l.udpClockSkewMs 2

/-- Whether some field lies outside the range of its name. -/
def Limits.scalarViolation : Bool :=
  [.ordinary, .aggregateBytes, .connectionReservation, .tcpFrame].any fun range =>
    (l.scalars range).any fun value => !(range.minimum ≤ value && value ≤ range.maximum)

/-- Accept a record of ceilings only if no check fails. -/
def Limits.validate : Except Error Unit := do
  check (l.managementViolation = false) .configuration
  check (l.scalarViolation = false) .configuration
  check (l.hierarchyViolation = false) .configuration

theorem Limits.validate_eq_ok {l : Limits} : l.validate = .ok () ↔
    l.managementViolation = false ∧ l.scalarViolation = false ∧ l.hierarchyViolation = false := by
  simp [validate, except_bind_eq_ok, check_eq_ok]

/-- Every field of validated ceilings lies in the range of its name. -/
theorem Limits.scalar_range {l : Limits} (h : l.validate = .ok ()) {range : ScalarRange} {value : ℕ}
    (hfield : value ∈ l.scalars range) : range.minimum ≤ value ∧ value ≤ range.maximum := by
  have hscalar := (validate_eq_ok.mp h).2.1
  rw [scalarViolation, List.any_eq_false] at hscalar
  have hrange := hscalar range (by cases range <;> simp)
  rw [Bool.not_eq_true, List.any_eq_false] at hrange
  simpa using hrange value hfield

end Netbaiot
