import RemoteAccess.Basics.LittleEndian
import RemoteAccess.Basics.BigEndian
import RemoteAccess.Basics.TypeLengthValue
import RemoteAccess.Basics.CheckedReads
import RemoteAccess.Basics.Trimming
import RemoteAccess.Basics.Occurrences
import RemoteAccess.Basics.WhileLoop
import RemoteAccess.Basics.StreamFraming
import RemoteAccess.Basics.Blocks
import RemoteAccess.Basics.Horner
import RemoteAccess.Basics.History
import RemoteAccess.Basics.Transitions
import RemoteAccess.Basics.Interleaving
import RemoteAccess.Basics.PartialMap
import RemoteAccess.Basics.RunningBounds
import RemoteAccess.Basics.Raster
import RemoteAccess.Basics.Evaluations
import RemoteAccess.Basics.Overwrites
import RemoteAccess.Basics.ChaChaPoly
import RemoteAccess.Basics.SecureHash
import RemoteAccess.Basics.BitFlips
import RemoteAccess.ProtocolCodec
import RemoteAccess.SharedProtocol
import RemoteAccess.CodecAgreement
import RemoteAccess.MobileApi
import RemoteAccess.LengthCheck
import RemoteAccess.CryptoEngine
import RemoteAccess.CryptoTampering
import RemoteAccess.MacShifts
import RemoteAccess.PacketStream
import RemoteAccess.SessionReceive
import RemoteAccess.Resynchronisation
import RemoteAccess.SealedMessage
import RemoteAccess.AgentReceive
import RemoteAccess.QtText
import RemoteAccess.SocketWrite
import RemoteAccess.WakeOnLan
import RemoteAccess.AgentPacketHandler
import RemoteAccess.AgentServer
import RemoteAccess.SessionSend
import RemoteAccess.PacketRelabelling
import RemoteAccess.NonceUse
import RemoteAccess.PacketReplay
import RemoteAccess.SessionPackets
import RemoteAccess.PasswordHandshake
import RemoteAccess.InputPath
import RemoteAccess.LinuxX11Input
import RemoteAccess.ViewerInput
import RemoteAccess.InputBounds
import RemoteAccess.AgentBroadcast
import RemoteAccess.VideoPath
import RemoteAccess.DirtyRegion
import RemoteAccess.MirrorShield
import RemoteAccess.ScreenCapture
import RemoteAccess.FrameIndexing
import RemoteAccess.ViewerFrames
import RemoteAccess.AuditLog
import RemoteAccess.AuditCallers
import RemoteAccess.AuditTampering
import RemoteAccess.IdentityStore
import RemoteAccess.IdentityService
import RemoteAccess.Totp
import RemoteAccess.SignalingServer
import RemoteAccess.ApiGateway
import RemoteAccess.SignalingSessions
import RemoteAccess.RelayServer
import RemoteAccess.RelayAccounting
import RemoteAccess.Sha256
import RemoteAccess.FileTransfer
import RemoteAccess.FileAssembly
import RemoteAccess.FileChunks
import RemoteAccess.TransferStatus
import RemoteAccess.TransferQueue
import RemoteAccess.Sha256Standard
import RemoteAccess.SessionConnection
import RemoteAccess.ReconnectRuns
import RemoteAccess.ReconnectBackoff
import RemoteAccess.FpsTelemetry
import RemoteAccess.SessionTabs
import RemoteAccess.SessionLabel
import RemoteAccess.CipherReference
import RemoteAccess.TagCoverage
import RemoteAccess.TagLength
import RemoteAccess.ReceiveBuffer
import RemoteAccess.QtUtf8
import RemoteAccess.ClipboardChat
import RemoteAccess.ClientActivity
import RemoteAccess.SessionRecords
import RemoteAccess.ClipboardDelivery
import RemoteAccess.PrivacyMode
import RemoteAccess.StunCodec
import RemoteAccess.IceConnection
import RemoteAccess.AuditDigest
import RemoteAccess.MonitorSwitching
import RemoteAccess.FrameBuffers
import RemoteAccess.AcceptedPasswords
import RemoteAccess.QtHostAddress
import RemoteAccess.LoopbackPeers
import RemoteAccess.DirectoryListing
import RemoteAccess.FileExplorer
import RemoteAccess.HistoryFile
import RemoteAccess.CaptureThread
import RemoteAccess.RemoteSession
import RemoteAccess.DeskId
import RemoteAccess.StunClient
import RemoteAccess.GatewaySessions
import RemoteAccess.GatewayReads
import RemoteAccess.KeyExchange
import RemoteAccess.MobilePackets
import RemoteAccess.PasswordGuesses
import RemoteAccess.Basics.Lines
import RemoteAccess.JsonLogger
import RemoteAccess.ConsentDialog
import RemoteAccess.Basics.Keystream
import RemoteAccess.Eavesdropper
import RemoteAccess.Basics.TagRecovery
import RemoteAccess.Forgery
