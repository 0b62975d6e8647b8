import Netbaiot.EventBus.Readiness
import Netbaiot.Spool.Cleanup
import Netbaiot.Quota.AdmissionBound
import Netbaiot.Udp.ReplayRuns
import Netbaiot.Rpc.Offline
import Netbaiot.Rpc.Fencing
import Netbaiot.Rpc.Serving
import Netbaiot.Mqtt.Access
import Netbaiot.Broker.TrieRuns
import Netbaiot.Broker.ExactlyOnce
import Netbaiot.Broker.ClientAgreement
import Netbaiot.Broker.CommandLimit
import Netbaiot.Auth.CacheIndexes
import Netbaiot.Auth.Revocation
import Netbaiot.Mux.TableRuns
import Netbaiot.Mux.Conservation
import Netbaiot.Lifecycle
import Netbaiot.Commands.Retention
import Netbaiot.Sessions.Coherence
import Netbaiot.Quota.ConnectionQuotas
import Netbaiot.Codecs.IntegerExact
import Netbaiot.Codecs.JsonBounds
import Netbaiot.Mqtt.Framing
