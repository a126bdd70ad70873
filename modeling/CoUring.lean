import CoUring.Foundation.Transition
import CoUring.Foundation.CircularQueue
import CoUring.Foundation.CircularWindow
import CoUring.Foundation.EraseLoop
import CoUring.Foundation.Splitting
import CoUring.Foundation.Heap
import CoUring.Foundation.Listing
import CoUring.Foundation.MapHistory
import CoUring.Foundation.Simulation
import CoUring.Foundation.CriticalSection
import CoUring.Io.DispatchPass
import CoUring.Io.IoUring
import CoUring.Io.BufferRing
import CoUring.Io.RegisterBufRing
import CoUring.Io.Bind
import CoUring.Io.Logger
import CoUring.Foundation.Framing
import CoUring.Client.TestClient
import CoUring.Client.ReceivePacket
import CoUring.Client.PacketStream
import CoUring.Client.ClientSocket
import CoUring.Client.Interactive
import CoUring.Client.Conversation
import CoUring.Client.SimpleClient
import CoUring.Client.EchoTest
import CoUring.Io.LogPlaceholders
import CoUring.Io.LogSurplus
import CoUring.Io.LogFile
import CoUring.Coroutine.TaskHandles
import CoUring.Io.RingOccupancy
import CoUring.Coroutine.Task
import CoUring.Coroutine.TaskLifecycle
import CoUring.Coroutine.AwaitChain
import CoUring.Io.Socket
import CoUring.Session.SessionManager
import CoUring.Session.SessionOwners
import CoUring.Session.SessionMap
import CoUring.Session.CleanupSweep
import CoUring.Session.SessionThreads
import CoUring.Session.SessionRefinement
import CoUring.Session.UseCounts
import CoUring.Session.Descriptors
import CoUring.Session.LockedManager
import CoUring.Session.RecvLoop
import CoUring.Io.Requests
import CoUring.Server.Machine
import CoUring.Server.Steps
import CoUring.Server.Requests
import CoUring.Server.RequestsMatch
import CoUring.Server.EchoMachine
import CoUring.Server.Confinement
import CoUring.Server.Sessions
import CoUring.Server.Sends
import CoUring.Server.EchoCalls
import CoUring.Server.EchoStorage
import CoUring.Server.EchoStream
import CoUring.Server.EchoOrder
import CoUring.Server.Matching
import CoUring.Server.EventLoop
import CoUring.Server.HalfTaken
import CoUring.Server.RingServer
import CoUring.Server.RingTraces
import CoUring.Server.Dispatch
import CoUring.Server.Start
import CoUring.Server.SessionSteps
import CoUring.Server.OwnRequests
import CoUring.Server.Registration
import CoUring.Server.Activity
import CoUring.Server.Connections
import CoUring.Server.GameServer
import CoUring.Server.Stopping
import CoUring.Server.StartStop
import CoUring.Server.Accepting
import CoUring.Server.SubmissionQueue
import CoUring.Server.Ownership
import CoUring.Server.BufferConservation
import CoUring.Server.Stall
import CoUring.Server.Drain
import CoUring.Server.DrainSimulation
import CoUring.Server.Starvation
import CoUring.Server.ReceivedData
import CoUring.Server.Owner
import CoUring.Server.Main
import CoUring.Server.Network
import CoUring.Server.NetworkClients
