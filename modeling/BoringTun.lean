import BoringTun.Amnezia.Cover
import BoringTun.Amnezia.Framing
import BoringTun.Amnezia.Prelude
import BoringTun.Amnezia.Verdict
import BoringTun.Amplification
import BoringTun.AntiReplay
import BoringTun.Budget
import BoringTun.BurstOrder
import BoringTun.Ceilings
import BoringTun.Classification
import BoringTun.Cookie
import BoringTun.Core
import BoringTun.CycleLeft
import BoringTun.Device.Agreement
import BoringTun.Device.AllowedIps
import BoringTun.Device.ApiTransport
import BoringTun.Device.AwgParams
import BoringTun.Device.Connection
import BoringTun.Device.Demux
import BoringTun.Device.DevLock
import BoringTun.Device.Hints
import BoringTun.Device.IndexLfsr
import BoringTun.Device.Interface
import BoringTun.Device.Listener
import BoringTun.Device.Marks
import BoringTun.Device.Peer
import BoringTun.Device.PeerTables
import BoringTun.Device.ProbeBudget
import BoringTun.Device.ProbeReply
import BoringTun.Device.Roaming
import BoringTun.Device.Uapi
import BoringTun.Device.UapiWhole
import BoringTun.ExpiredCycle
import BoringTun.Handshake.Agreement
import BoringTun.Handshake.AntiReplay
import BoringTun.Handshake.Memory
import BoringTun.Imitation.DnsGrammar
import BoringTun.Imitation.Exclusive
import BoringTun.Imitation.Generate
import BoringTun.Imitation.StunGrammar
import BoringTun.KeyFreshness
import BoringTun.Lib.Account
import BoringTun.Lib.FetchUpdate
import BoringTun.Lib.Potential
import BoringTun.Lib.Roll
import BoringTun.Lib.Tickets
import BoringTun.Lifetimes
import BoringTun.Ownership
import BoringTun.Queue
import BoringTun.Quic.Packet
import BoringTun.Quiescence
import BoringTun.RateLimits
import BoringTun.Readings
import BoringTun.RefusedTick
import BoringTun.Selection
import BoringTun.Session.NonceClaims
import BoringTun.SessionSerials
import BoringTun.SharedCounts
import BoringTun.Tunn.Answer
import BoringTun.Tunn.Commit
import BoringTun.Tunn.Custody
import BoringTun.Tunn.Decapsulate
import BoringTun.Tunn.Encapsulate
import BoringTun.Tunn.Learning
import BoringTun.Tunn.Memory
import BoringTun.Tunn.OneByte
import BoringTun.Tunn.Outlet
import BoringTun.Tunn.Output
import BoringTun.Tunn.Receive
import BoringTun.Tunn.Refine
import BoringTun.Tunn.RoundTrip
import BoringTun.Tunn.Run
import BoringTun.Tunn.Simulation
import BoringTun.Tunn.State
import BoringTun.Tunn.TimerArithmetic
