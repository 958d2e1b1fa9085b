import KubeRouter.Netpol.DefaultDeny
import KubeRouter.Netpol.Transient
import KubeRouter.Netpol.WellFormed
import KubeRouter.Agent.Cleanup
import KubeRouter.Netpol.Payload
import KubeRouter.Netpol.NamedPort
import KubeRouter.Netpol.Replace
import KubeRouter.Proxy.Recovery
import KubeRouter.Proxy.FwMark
import KubeRouter.Proxy.Dsr
import KubeRouter.Proxy.Graceful
import KubeRouter.Proxy.Firewall
import KubeRouter.Proxy.TrafficPolicy
import KubeRouter.Routing.Podnet
import KubeRouter.Routing.Ledger
import KubeRouter.Bgp.Withdrawal
import KubeRouter.Routing.Topology
import KubeRouter.Routing.Advertise
import KubeRouter.Lballoc.Election
import KubeRouter.Lballoc.DualStack
import KubeRouter.Agent.Health
import KubeRouter.Agent.PodWire
import KubeRouter.Agent.NodeWire
import KubeRouter.Agent.ServiceFamily
import KubeRouter.Proxy.IpvsStats
import KubeRouter.Agent.AnnotationParsers
import KubeRouter.Agent.PeerFlags
import KubeRouter.Agent.NodePortRange
import KubeRouter.Cni.ConfList
import KubeRouter.Lballoc.Enumeration
import KubeRouter.Routing.PeerDiff
import KubeRouter.Netpol.PlanText
import KubeRouter.Proxy.NatRuns
import KubeRouter.Proxy.HealthCheck
import KubeRouter.Proxy.Transport
import KubeRouter.Routing.Mesh
import KubeRouter.Agent.Enforcement
import KubeRouter.Agent.ServiceDelivery
