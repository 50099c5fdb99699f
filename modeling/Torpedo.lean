import Torpedo.Util.Collections
import Torpedo.LinkDiscovery.Link
import Torpedo.LinkDiscovery.Links
import Torpedo.LinkDiscovery.LinksInvariant
import Torpedo.Topology.Instance
import Torpedo.Topology.ShortestPath
import Torpedo.Topology.DepthFirst
import Torpedo.Topology.Routing
import Torpedo.Topology.Computed
import Torpedo.Topology.Manager
import Torpedo.LinkDiscovery.Discovery
import Torpedo.Topology.Synchronised
import Torpedo.Topology.DijkstraRun
import Torpedo.Topology.ShortestPathCosts
import Torpedo.Topology.NextHops
import Torpedo.Topology.Routes
import Torpedo.Topology.Search
import Torpedo.Topology.Components
import Torpedo.Topology.Broadcast
import Torpedo.Topology.Chains
import Torpedo.DeviceManager.Entity
import Torpedo.DeviceManager.Device
import Torpedo.Util.Gaps
import Torpedo.DeviceManager.Activity
import Torpedo.DeviceManager.Devices
import Torpedo.DeviceManager.DevicesInvariant
import Torpedo.DeviceManager.AttachmentPoints
import Torpedo.DeviceManager.DeviceRuns
import Torpedo.DeviceManager.Cleanup
import Torpedo.DeviceManager.Queries
import Torpedo.DeviceManager.QueryAnswers
import Torpedo.DeviceManager.Addresses
import Torpedo.DeviceManager.Sightings
import Torpedo.DeviceManager.LearnCalls
import Torpedo.DeviceManager.LearnRaces
import Torpedo.Controller.Switches
import Torpedo.Controller.Batches
import Torpedo.Controller.Disconnects
import Torpedo.LinkDiscovery.Disconnections
import Torpedo.Controller.Negotiations
import Torpedo.Stream.AsyncStream
import Torpedo.Stream.Reading
import Torpedo.Stream.Writing
import Torpedo.Util.Decoder
import Torpedo.Packet.Internet
import Torpedo.Packet.Ethernet
import Torpedo.Packet.Whole
import Torpedo.Packet.PacketIn
import Torpedo.Util.OnesComplement
import Torpedo.Util.Encoder
import Torpedo.Packet.Serialize
import Torpedo.Packet.Written
import Torpedo.Packet.Checksums
import Torpedo.Packet.Lengths
import Torpedo.Util.Codec
import Torpedo.Packet.Decoded
import Torpedo.Packet.RoundTrip
import Torpedo.Packet.Segments
import Torpedo.Packet.Messages
import Torpedo.Packet.Frames
import Torpedo.Packet.Lldp
import Torpedo.LinkDiscovery.Messages
import Torpedo.Packet.Positions
import Torpedo.Packet.Matches
import Torpedo.Packet.Loading
import Torpedo.Firewall.Rule
import Torpedo.Firewall.Decisions
import Torpedo.Firewall.Purge
import Torpedo.Util.Decimal
import Torpedo.Firewall.Storage
import Torpedo.Firewall.Firewall
import Torpedo.Firewall.Rules
import Torpedo.Util.Sorting
import Torpedo.Firewall.Reloading
import Torpedo.Util.Method
import Torpedo.Util.Entries
import Torpedo.Util.Tags
import Torpedo.TunnelManager.Node
import Torpedo.TunnelManager.PortVlans
import Torpedo.TunnelManager.TunnelManager
import Torpedo.TunnelManager.Vlans
import Torpedo.TunnelManager.Accounts
import Torpedo.TunnelManager.Steps
import Torpedo.Util.Inverses
import Torpedo.Util.Iterators
import Torpedo.VxlanFlowMapper.Storage
import Torpedo.VxlanFlowMapper.Manager
import Torpedo.VxlanFlowMapper.Notifications
import Torpedo.VxlanFlowMapper.Mappings
import Torpedo.VxlanFlowMapper.Tenants
import Torpedo.Topology.RouteCache
import Torpedo.NetFailover.NetFailover
import Torpedo.NetFailover.Relayed
import Torpedo.StorageManager.StorageConverter
import Torpedo.StaticEntryManager.Storage
import Torpedo.StaticEntryManager.Manager
import Torpedo.StaticEntryManager.Operations
import Torpedo.StaticEntryManager.Atomic
import Torpedo.StaticEntryManager.Mirrored
import Torpedo.StaticEntryManager.Restart
import Torpedo.StorageManager.RoundTrip
import Torpedo.ConnectionMonitor.ConnectionMonitor
import Torpedo.StaticEntryManager.Bulk
import Torpedo.StaticEntryManager.StaticFlowEntry
import Torpedo.StaticEntryManager.Prerequisites
import Torpedo.Util.Numerals
import Torpedo.Util.JsonText
import Torpedo.MessageDamper.MessageDamper
import Torpedo.MessageDamper.Damped
import Torpedo.Controller.ResponseCache
import Torpedo.Controller.Responses
import Torpedo.StaticEntryManager.FlowMods
import Torpedo.StaticEntryManager.FlowModKeys
import Torpedo.StorageManager.TextDots
import Torpedo.StorageManager.TextForms
import Torpedo.Util.LinkedMaps
import Torpedo.Util.MergeJoin
import Torpedo.Util.Traversals
import Torpedo.Util.TwoRuns
import Torpedo.Forwarding.Forwarding
import Torpedo.Topology.Requests
import Torpedo.StateManager.FlowLinks
import Torpedo.StateManager.Paths
import Torpedo.Packet.Slices
import Torpedo.TunnelManager.Mesh
import Torpedo.Firewall.Prefixes
import Torpedo.Firewall.Sameness
import Torpedo.Firewall.Wildcards
import Torpedo.TunnelManager.Atomicity
import Torpedo.LearningMac.LearningMac
import Torpedo.VxlanFlowMapper.Decapsulation
import Torpedo.Util.Alternation
import Torpedo.Forwarding.MultiPort
import Torpedo.Packet.MatchLibrary
import Torpedo.Util.Latches
import Torpedo.Forwarding.PushRoute
import Torpedo.Packet.MatchText
import Torpedo.Packet.MatchPairs
import Torpedo.Packet.PairOrder
import Torpedo.Util.FiniteIterators
import Torpedo.Util.MultiIterators
import Torpedo.DeviceManager.EntityOrder
import Torpedo.Util.AppCookie
import Torpedo.Forwarding.BroadcastHits
import Torpedo.Controller.PortInformations
import Torpedo.Util.SeparatedTexts
import Torpedo.Firewall.AddressTexts
import Torpedo.Util.Overwrites
import Torpedo.Stream.ChannelBuffer
import Torpedo.Stream.ReadBuffer
import Torpedo.Stream.ReadCalls
import Torpedo.Stream.WriteBuffer
import Torpedo.Stream.WriteCalls
import Torpedo.Stream.Delivery
import Torpedo.Forwarding.Travels
import Torpedo.Ml2.Deletions
import Torpedo.Ml2.Placements
import Torpedo.DeviceManager.Traces
