import ChatRing.Lib.CText
import ChatRing.Lib.CArray
import ChatRing.Lib.Template
import ChatRing.Lib.Except
import ChatRing.Lib.Run
import ChatRing.Lib.CausalBroadcast
import ChatRing.Lib.CyclicList
import ChatRing.Lib.Framing
import ChatRing.Lib.Lines
import ChatRing.Lib.RingElection
import ChatRing.Lib.ElectionCost
import ChatRing.Wire
import ChatRing.Client.Queue
import ChatRing.Client.Receive
import ChatRing.Client.Send
import ChatRing.Client.Group
import ChatRing.Client.Refinement
import ChatRing.Client.Causality
import ChatRing.Client.Arrival
import ChatRing.Client.Delivery
import ChatRing.Client.RoundTrip
import ChatRing.Client.Stale
import ChatRing.Client.LateJoin
import ChatRing.Client.FailedMulticast
import ChatRing.Client.Dependencies
import ChatRing.Client.QueueNode
import ChatRing.Server.Structs
import ChatRing.Server.Messages
import ChatRing.Client.Join
import ChatRing.Server.State
import ChatRing.Server.Admission
import ChatRing.Server.Election
import ChatRing.Server.Clients
import ChatRing.Server.Heartbeat
import ChatRing.Server.Socket
import ChatRing.Server.Framing
import ChatRing.Server.ElectionFrame
import ChatRing.Server.Loop
import ChatRing.Server.Descriptors
import ChatRing.Server.Leader
import ChatRing.Server.Sweep
import ChatRing.Server.Ring
import ChatRing.Server.IntactRing
import ChatRing.Server.ElectionCost
import ChatRing.Server.StartUp
import ChatRing.Server.Role
import ChatRing.Server.CrashRing
import ChatRing.Server.RingVotes
import ChatRing.Server.System
import ChatRing.Server.Follower
import ChatRing.Server.MissingLink
import ChatRing.Server.ClientTable
import ChatRing.Server.Indices
import ChatRing.Server.Routing
import ChatRing.Server.Decoding
import ChatRing.Server.FailedSend
import ChatRing.Server.Announcement
import ChatRing.Server.Successor
import ChatRing.Server.Repair
import ChatRing.Server.Printed
import ChatRing.Server.Bounds
import ChatRing.Server.ServiceDiscovery
import ChatRing.Server.Discovered
import ChatRing.Server.Guidance
import ChatRing.Server.Quiet
import ChatRing.Server.Cluster
import ChatRing.Server.Eviction
import ChatRing.Server.Progress
import ChatRing.Server.Formation
import ChatRing.Server.Recovery
import ChatRing.Server.Service
import ChatRing.Client.Session
import ChatRing.Client.Conversation
import ChatRing.Server.Relay
