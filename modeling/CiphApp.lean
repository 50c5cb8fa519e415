import CiphApp.Lib.Loop
import CiphApp.Lib.ByteMemory
import CiphApp.Lib.Ownership
import CiphApp.Lib.Tickets
import CiphApp.Lib.Simulation
import CiphApp.DataVectors
import CiphApp.Agent.Codec
import CiphApp.Agent.RoundTrip
import CiphApp.Agent.Containment
import CiphApp.Agent.Encoder
import CiphApp.Agent.Addressing
import CiphApp.Cryptodev.Client
import CiphApp.Cryptodev.Jobs
import CiphApp.Cryptodev.Steps
import CiphApp.Cryptodev.Sessions
import CiphApp.Cryptodev.Inner
import CiphApp.Cryptodev.Sorting
import CiphApp.Cryptodev.Burst
import CiphApp.Cryptodev.Served
import CiphApp.Cryptodev.PoolObject
import CiphApp.Cryptodev.NoFalseSuccess
import CiphApp.Cryptodev.DevPhase
import CiphApp.Cryptodev.Routing
import CiphApp.Cryptodev.Passes
import CiphApp.Cryptodev.Iv
import CiphApp.Cryptodev.Attribution
import CiphApp.Cryptodev.SessionMap
import CiphApp.Cryptodev.FailedJobs
import CiphApp.Cryptodev.Single
import CiphApp.Cryptodev.Computing
import CiphApp.Cryptodev.Grouping
import CiphApp.Agent.Server
import CiphApp.Agent.EndToEnd
import CiphApp.Agent.Connections
import CiphApp.Memif.Link
import CiphApp.Memif.Ordering
import CiphApp.Memif.Loss
import CiphApp.Memif.Slots
import CiphApp.Memif.SlotOrder
import CiphApp.Memif.Receive
import CiphApp.Agent.Polling
import CiphApp.Memif.Send
import CiphApp.Cryptodev.HexDump
import CiphApp.Agent.Lengths
import CiphApp.Cryptodev.Calls
import CiphApp.Cryptodev.Tables
import CiphApp.Cryptodev.Accounting
import CiphApp.Agent.ConnFree
import CiphApp.Lib.Counter
import CiphApp.Lib.Channel
import CiphApp.Libmemif.Ring
import CiphApp.Libmemif.Calls
import CiphApp.Libmemif.Layout
import CiphApp.Libmemif.SharedRing
import CiphApp.Libmemif.Refinement
import CiphApp.Libmemif.Runs
import CiphApp.Libmemif.Delivery
import CiphApp.Lib.Progress
import CiphApp.Libmemif.Completion
import CiphApp.Libmemif.Established
