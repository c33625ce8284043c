import Teleproto3.Lib.Runs
import Teleproto3.Lib.Loop
import Teleproto3.Lib.Incremental
import Teleproto3.Lib.Stage
import Teleproto3.Lib.Word32
import Teleproto3.Lib.Memory
import Teleproto3.Lib.Bytes
import Teleproto3.Lib.Keystream
import Teleproto3.Lib.CString
import Teleproto3.Lib.Tally
import Teleproto3.Lib.Ledger
import Teleproto3.Lib.Pacing
import Teleproto3.Lib.Rounding
import Teleproto3.Lib.AgedQueue
import Teleproto3.Lib.LinkedList
import Teleproto3.Lib.CircularList
import Teleproto3.Lib.Framing
import Teleproto3.Lib.Arrival
import Teleproto3.Lib.Window
import Teleproto3.Lib.Utf8
import Teleproto3.Lib.Separated
import Teleproto3.Lib.Cutting
import Teleproto3.Lib.InTurn
import Teleproto3.Wire.Result
import Teleproto3.Wire.HttpChunk
import Teleproto3.Wire.WsHead
import Teleproto3.Wire.SessionHeader
import Teleproto3.Wire.Secret
import Teleproto3.Wire.SecretSplit
import Teleproto3.Wire.HostName
import Teleproto3.Wire.Url
import Teleproto3.Client.Ring
import Teleproto3.Client.WsFrame
import Teleproto3.Client.Stream
import Teleproto3.Client.Write
import Teleproto3.Client.Handshake
import Teleproto3.Client.Incoming
import Teleproto3.Client.Conversation
import Teleproto3.Client.Receive
import Teleproto3.Client.FrameReader
import Teleproto3.Client.Deframing
import Teleproto3.Client.Delivery
import Teleproto3.Client.ReceiveRuns
import Teleproto3.Client.Padding
import Teleproto3.Client.SplitPlan
import Teleproto3.Client.MarkedMessages
import Teleproto3.Client.Pump
import Teleproto3.Client.ByteLoss
import Teleproto3.Client.FatalErrors
import Teleproto3.Client.ResponseStripping
import Teleproto3.Client.RetryTier
import Teleproto3.Client.Tunnel
import Teleproto3.Client.TunnelRecovery
import Teleproto3.Client.Timing
import Teleproto3.Client.Shim
import Teleproto3.Client.ShimShutdown
import Teleproto3.Client.ShimGate
import Teleproto3.Server.Conn
import Teleproto3.Server.ChunkUnwrap
import Teleproto3.Server.ChunkHeaders
import Teleproto3.Server.WebSocket
import Teleproto3.Server.FrameHeaders
import Teleproto3.Server.ClientFrames
import Teleproto3.Server.Detect
import Teleproto3.Server.Dispatch
import Teleproto3.Server.Obfs2
import Teleproto3.Server.Decrypt
import Teleproto3.Server.Reader
import Teleproto3.Server.Outbound
import Teleproto3.Server.ExtServer
import Teleproto3.Server.ParseLoop
import Teleproto3.Server.ReaderRuns
import Teleproto3.Server.PacketLoop
import Teleproto3.Server.HandshakeAgreement
import Teleproto3.Server.KeyAgreement
import Teleproto3.Server.ChunkStream
import Teleproto3.Server.ChunkSplits
import Teleproto3.Server.Uplink
import Teleproto3.Server.CipherStart
import Teleproto3.Server.SecretTable
import Teleproto3.Server.ReloadAtomicity
import Teleproto3.Server.AddressTable
import Teleproto3.Server.Alarm
import Teleproto3.Server.SlotServer
import Teleproto3.Server.SlotTurn
import Teleproto3.Server.SlotRuns
import Teleproto3.Server.Admission
import Teleproto3.Server.SlotStability
import Teleproto3.Server.TomlConfig
import Teleproto3.Server.UniqueKeys
import Teleproto3.Server.Conservation
import Teleproto3.Server.ProbeWait
import Teleproto3.Server.SilentClose
import Teleproto3.Server.ProxyProtocol
import Teleproto3.Server.ProxyTransparency
import Teleproto3.Server.DirectDc
import Teleproto3.Server.Surroundings
import Teleproto3.Server.RateLimiter
import Teleproto3.Server.RefillRounding
import Teleproto3.Server.ReplayCache
import Teleproto3.Server.RandomsHeap
import Teleproto3.Server.DirectQuota
import Teleproto3.Server.DirectRelay
import Teleproto3.Server.Socks5Handshake
import Teleproto3.Server.DeliveryRuns
import Teleproto3.Server.ChunkDelivery
import Teleproto3.Server.TlsRecords
import Teleproto3.Server.FrameDelivery
import Teleproto3.Server.FrameUnwrap
import Teleproto3.Server.FrameConformance
import Teleproto3.Server.Writer
import Teleproto3.Server.OutputFraming
import Teleproto3.Server.PacketHeaders
import Teleproto3.Server.TerminalChunk
import Teleproto3.Server.PacketStream
import Teleproto3.Server.RecordPacing
import Teleproto3.Server.WakeUps
import Teleproto3.Server.RecordStream
import Teleproto3.Server.DispatchDelay
import Teleproto3.Server.DirectGauge
import Teleproto3.Server.RetryBound
import Teleproto3.Server.ReaderWaking
import Teleproto3.Server.HeaderOnce
import Teleproto3.Server.TransportDispatch
import Teleproto3.Lib.LeadingBits
import Teleproto3.Server.NumberText
import Teleproto3.Server.IpAcl
import Teleproto3.Server.CidrLines
import Teleproto3.Server.SecretLimits
import Teleproto3.Server.ProxyFragments
import Teleproto3.Lib.Access
import Teleproto3.Server.TlsParse
import Teleproto3.Server.ServerHello
import Teleproto3.Lib.Selection
import Teleproto3.Server.TopIps
import Teleproto3.Server.BenchEcho
import Teleproto3.Server.SessionGauge
import Teleproto3.Server.VolumeTable
import Teleproto3.Server.VolumeRuns
import Teleproto3.Lib.Rejection
import Teleproto3.Client.Samplers
import Teleproto3.Lib.FirstMatch
import Teleproto3.Server.BenchHook
import Teleproto3.Server.BenchGuard
import Teleproto3.Server.ExtConnections
import Teleproto3.Server.ExtCircles
import Teleproto3.Server.ExtLayout
import Teleproto3.Server.ExtChains
import Teleproto3.Server.ExtLedger
import Teleproto3.Server.ExtTable
import Teleproto3.Server.ExtCreation
import Teleproto3.Server.ExtRemoval
import Teleproto3.Server.ExtClosing
import Teleproto3.Server.ExtTableRuns
import Teleproto3.Server.QueryForwarding
import Teleproto3.Server.ExtQueries
import Teleproto3.Server.FrontLog
import Teleproto3.Server.FrontHeld
import Teleproto3.Server.FrontSound
import Teleproto3.Server.FrontRuns
import Teleproto3.Lib.CountTree
import Teleproto3.Lib.Refinement
import Teleproto3.Server.BufferChunks
import Teleproto3.Server.BufferCutting
import Teleproto3.Server.BufferTaking
import Teleproto3.Server.BufferPool
import Teleproto3.Server.BufferPoolRuns
