import RouteFlow.Allocation
import RouteFlow.AllocationEnds
import RouteFlow.Announcements
import RouteFlow.Association
import RouteFlow.Channels
import RouteFlow.Client
import RouteFlow.ConfigText
import RouteFlow.Configured
import RouteFlow.Corsa
import RouteFlow.Credits
import RouteFlow.DatapathConfig
import RouteFlow.DatapathDown
import RouteFlow.Discovery
import RouteFlow.Effects
import RouteFlow.Emission
import RouteFlow.EndToEnd
import RouteFlow.EntryTables
import RouteFlow.EthAddr
import RouteFlow.FastPath
import RouteFlow.FastPathDelivery
import RouteFlow.FastPathRules
import RouteFlow.FastPathRuns
import RouteFlow.Flows
import RouteFlow.Forwarding
import RouteFlow.Fpm
import RouteFlow.HeldBack
import RouteFlow.Incarnations
import RouteFlow.Ingress
import RouteFlow.Isl
import RouteFlow.LabelPlacement
import RouteFlow.LabelTree
import RouteFlow.Labels
import RouteFlow.Lib.Bfs
import RouteFlow.Lib.Bits
import RouteFlow.Lib.Bytes
import RouteFlow.Lib.Conveyor
import RouteFlow.Lib.Fabric
import RouteFlow.Lib.Handles
import RouteFlow.Lib.Keyed
import RouteFlow.Lib.Monitor
import RouteFlow.Lib.Naming
import RouteFlow.Lib.Network
import RouteFlow.Lib.Once
import RouteFlow.Lib.Race
import RouteFlow.Lib.Replay
import RouteFlow.Lib.Rules
import RouteFlow.Lib.Run
import RouteFlow.Lib.Source
import RouteFlow.Lib.Store
import RouteFlow.Lib.Tables
import RouteFlow.LinkRoutes
import RouteFlow.LiveRoutes
import RouteFlow.Messages
import RouteFlow.MongoIpc
import RouteFlow.Owners
import RouteFlow.Packet
import RouteFlow.Packing
import RouteFlow.Pipeline
import RouteFlow.Ports
import RouteFlow.Prefix
import RouteFlow.PriorityOrder
import RouteFlow.Protocol
import RouteFlow.Registration
import RouteFlow.RegistrationRace
import RouteFlow.ResolverThread
import RouteFlow.RouteMods
import RouteFlow.RouteTable
import RouteFlow.Routes
import RouteFlow.Rows
import RouteFlow.SearchOrder
import RouteFlow.SearchTree
import RouteFlow.SentOnce
import RouteFlow.Server
import RouteFlow.SyncQueue
import RouteFlow.System
import RouteFlow.Tables
import RouteFlow.TameRouteMods
import RouteFlow.Tlv
import RouteFlow.TlvAgree
import RouteFlow.TlvDecoding
import RouteFlow.Topology
import RouteFlow.Translator
import RouteFlow.TwoHop
import RouteFlow.WayUp
import RouteFlow.Wire
import RouteFlow.Withdrawal
import RouteFlow.ZeroMq
