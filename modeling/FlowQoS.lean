import FlowQoS.Timer.Run
import FlowQoS.Router.Locks
import FlowQoS.Router.Slots
import FlowQoS.Worker.Ownership
import FlowQoS.Message.Defs
import FlowQoS.Message.Protocol
import FlowQoS.Pipe.Defs
import FlowQoS.Conntrack.Defs
import FlowQoS.Conntrack.Invariant
import FlowQoS.Conntrack.Preserve
import FlowQoS.Conntrack.Stable
import FlowQoS.Conntrack.Step
import FlowQoS.Conntrack.LifeCycle
import FlowQoS.Conntrack.Ledger
import FlowQoS.Conntrack.Budget
import FlowQoS.Conntrack.Aging
import FlowQoS.Conntrack.Filter
import FlowQoS.Pipe.Adapter
import FlowQoS.Conntrack.FastPath
import FlowQoS.Conntrack.Scheduler
import FlowQoS.Conntrack.Congestion
import FlowQoS.Timer.RealTime
import FlowQoS.Apps.Firewall
import FlowQoS.Apps.Snat
import FlowQoS.Apps.SnatPool
import FlowQoS.Lib.Buffers
import FlowQoS.Message.Transport
import FlowQoS.Message.Custody
import FlowQoS.Message.Delivery
import FlowQoS.Conntrack.Access
import FlowQoS.Conntrack.Allocated
import FlowQoS.Conntrack.Endings
import FlowQoS.Apps.SnatLease
import FlowQoS.Apps.SnatReturn
import FlowQoS.Conntrack.Round
import FlowQoS.Pipe.Insertion
import FlowQoS.Router.Atomic
import FlowQoS.Lib.SlotMap
import FlowQoS.Router.Arp
import FlowQoS.Router.Lookup
import FlowQoS.Router.Local
import FlowQoS.Lib.OnesComplement
import FlowQoS.Router.Reply
import FlowQoS.Conntrack.Checksums
import FlowQoS.Message.ReplyBuffer
import FlowQoS.Worker.Order
import FlowQoS.Apps.LoadBalancing
import FlowQoS.Conntrack.Tighten
import FlowQoS.Lib.CString
import FlowQoS.Pipe.Format
import FlowQoS.Timer.Reset
import FlowQoS.Conntrack.Headers
import FlowQoS.Lib.Lease
import FlowQoS.Conntrack.Aside
import FlowQoS.Conntrack.Keepalive
import FlowQoS.Lib.AlarmLog
import FlowQoS.Timer.Reentrant
import FlowQoS.Conntrack.Lend
import FlowQoS.Conntrack.Cores
import FlowQoS.Lib.Line
import FlowQoS.Conntrack.Waiting
import FlowQoS.Conntrack.Affinity
import FlowQoS.Conntrack.Idle
import FlowQoS.Conntrack.Dealings
import FlowQoS.Apps.AdaptiveRouting
import FlowQoS.Apps.LoadBalancingStats
import FlowQoS.Router.Commands
import FlowQoS.Conntrack.Statistics
import FlowQoS.Worker.Processors
import FlowQoS.Worker.Flows
import FlowQoS.Apps.Spraying
import FlowQoS.Apps.LoadBalancingReturn
