import XprcServer.Lib.System
import XprcServer.Lib.Ring
import XprcServer.Channels.Bounds
import XprcServer.Network.SendBuffer
import XprcServer.Lib.Logged
import XprcServer.Channels.Lookup
import XprcServer.Lib.Locks
import XprcServer.Session.World
import XprcServer.Session.Messages
import XprcServer.Session.Dialogue
import XprcServer.Server.HandleRequest
import XprcServer.Commands.Cmrg
import XprcServer.Server.LockOrder
import XprcServer.Network.Receive
import XprcServer.Network.Chunks
import XprcServer.Server.Handshake
import XprcServer.Server.Teardown
import XprcServer.Server.Tracking
import XprcServer.Network.ConnectionSetup
import XprcServer.Network.Sockets
import XprcServer.Hashmap
import XprcServer.Dataproxy.Basic
import XprcServer.Dataproxy.Lifecycle
import XprcServer.Dataproxy.Access
import XprcServer.Dataproxy.Revocation
import XprcServer.Commands.Port
import XprcServer.Dataproxy.Ownership
import XprcServer.Commands.Drci
import XprcServer.Commands.Registration
import XprcServer.Commands.CmrgLifecycle
import XprcServer.Commands.Escapes
import XprcServer.Commands.Invocations
import XprcServer.Lib.Alternation
import XprcServer.Lib.Custody
import XprcServer.Commands.Xpqueue
import XprcServer.Commands.Holding
import XprcServer.Commands.Cmtr
import XprcServer.Commands.Cmhd
import XprcServer.Commands.HoldRuns
import XprcServer.Commands.HoldThreads
import XprcServer.Server.Occupancy
import XprcServer.Server.Sessions
import XprcServer.Commands.Drqv
import XprcServer.Commands.Sampling
import XprcServer.Commands.Streams
import XprcServer.Commands.Termination
import XprcServer.Roster.Basic
import XprcServer.Roster.Tenants
import XprcServer.Roster.Desks
import XprcServer.Roster.Proxies
import XprcServer.Roster.Creation
import XprcServer.Roster.Runs
import XprcServer.Roster.Destruction
import XprcServer.Channels.Codec
import XprcServer.Requests.Scan
import XprcServer.Requests.RoundTrip
import XprcServer.Requests.Options
import XprcServer.Lib.Buffer
import XprcServer.Session.Lines
import XprcServer.Lib.Refinement
import XprcServer.Channels.FiniteMap
import XprcServer.Decimal
import XprcServer.Protocol.Arrays
import XprcServer.Protocol.Types
import XprcServer.Protocol.Texts
import XprcServer.Lib.Links
import XprcServer.Hashmap.Memory
import XprcServer.Lists.Prealloc
import XprcServer.Lists.Sequence
import XprcServer.Lists.Compact
import XprcServer.Lists.Linked
import XprcServer.Server.Manager
import XprcServer.Server.Starting
import XprcServer.Utils.Numbers
import XprcServer.Utils.Dates
import XprcServer.Fileio
import XprcServer.Fileio.Breaks
import XprcServer.Licenses
import XprcServer.Settings.Basic
import XprcServer.Settings.Manager
import XprcServer.Settings.Loading
import XprcServer.Network.Addresses
import XprcServer.Commands.Drmu
import XprcServer.Lib.Windows
import XprcServer.Commands.CmtrRuns
import XprcServer.Commands.Timing
import XprcServer.Network.Acceptance
import XprcServer.Network.Ipv4
import XprcServer.Lib.Comparators
import XprcServer.Network.IpOrder
import XprcServer.Lib.Rearrange
import XprcServer.Lists.Sorting
import XprcServer.Arrays
import XprcServer.Commands.DrciArrays
import XprcServer.Channels.Pending
import XprcServer.Lists.Leftovers
import XprcServer.Lists.Releases
import XprcServer.Tasks.Schedule
import XprcServer.Tasks.Ownership
import XprcServer.Tasks.Walk
import XprcServer.Tasks.Deadline
import XprcServer.Session.Answers
import XprcServer.Protocol.Encoding
import XprcServer.Commands.Drls
import XprcServer.Commands.Features
import XprcServer.Commands.Srfs
import XprcServer.Session.Talks
import XprcServer.Commands.Descriptions
import XprcServer.Server.Instant
import XprcServer.Commands.DrmuCycles
import XprcServer.Commands.DrmuFrames
import XprcServer.Plugin.FlightLoop
import XprcServer.Lib.Heap
import XprcServer.Fileio.Reading
import XprcServer.Commands.DrciRequests
import XprcServer.Commands.DrciOffers
