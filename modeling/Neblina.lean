import Neblina.Lib.Splitting
import Neblina.Lib.Effect
import Neblina.Lib.Lifetime
import Neblina.Lib.Transition
import Neblina.Lib.PartialMap
import Neblina.Protocol.LineSession
import Neblina.Protocol.Framing
import Neblina.Protocol.Conservation
import Neblina.Protocol.Termination
import Neblina.Protocol.Failure
import Neblina.Thread.Refinement
import Neblina.Thread.Routing
import Neblina.Thread.Vector
import Neblina.Thread.Recorded
import Neblina.Thread.Notification
import Neblina.Thread.Queue
import Neblina.Thread.Shutdown
import Neblina.Thread.Ending
import Neblina.Server.Send
import Neblina.Server.Kernel
import Neblina.Server.Poller
import Neblina.Server.Server
import Neblina.Server.System
import Neblina.Server.Invariant
import Neblina.Server.Stream
import Neblina.Server.Isolation
import Neblina.Server.Ledger
import Neblina.Server.Registration
import Neblina.Server.HangUp
import Neblina.Server.Edge
import Neblina.Server.Fault
import Neblina.Server.Table
import Neblina.Server.Opening
import Neblina.Server.Construction
import Neblina.Server.Leak
import Neblina.Server.Loop
import Neblina.Server.Lifecycle
import Neblina.Server.Lines
import Neblina.Server.Rest
import Neblina.Client.Client
import Neblina.Client.Send
import Neblina.Client.Spinlock
import Neblina.Client.Receive
import Neblina.Client.Handshake
import Neblina.LoadTest.Attempt
import Neblina.LoadTest.Report
import Neblina.LoadTest.Getopt
import Neblina.LoadTest.Options
