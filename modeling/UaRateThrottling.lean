import UaRateThrottling.Queue.Order
import UaRateThrottling.Queue.Wakeup
import UaRateThrottling.Server.HandOver
import UaRateThrottling.Server.Ownership
import UaRateThrottling.Server.Consumer
import UaRateThrottling.Client.Transport
import UaRateThrottling.Client.Calls
import UaRateThrottling.Channel.RoundTrip
import UaRateThrottling.Channel.Envelope
import UaRateThrottling.Channel.Direct
import UaRateThrottling.Channel.Created
import UaRateThrottling.Queue.CounterOverflow
import UaRateThrottling.Path.Initialize
import UaRateThrottling.Queue.Batch
import UaRateThrottling.Queue.Throttle
import UaRateThrottling.Server.AtMostOnce
import UaRateThrottling.Hashtable.TaskTable
import UaRateThrottling.Config.GroupGuid
import UaRateThrottling.Channel.Segments
import UaRateThrottling.Channel.Stream
import UaRateThrottling.Channel.Delivery
import UaRateThrottling.Channel.Handshake
import UaRateThrottling.Hashtable.Iterator
import UaRateThrottling.Binary.Size
import UaRateThrottling.Binary.Truncated
import UaRateThrottling.Channel.Requests
import UaRateThrottling.Server.Channels
import UaRateThrottling.NodeStore.Runs
