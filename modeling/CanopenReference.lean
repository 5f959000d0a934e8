import CanopenReference.AcceptanceList
import CanopenReference.BatteryPersonality
import CanopenReference.BatteryStatus
import CanopenReference.BlockCounter
import CanopenReference.BusOff
import CanopenReference.BusOffNotice
import CanopenReference.BusOffRetries
import CanopenReference.BusOffWait
import CanopenReference.BusTraffic
import CanopenReference.CanFilter
import CanopenReference.Cia302
import CanopenReference.Cia402
import CanopenReference.Cia418
import CanopenReference.Diagnostics
import CanopenReference.Dialogue
import CanopenReference.DidSecrecy
import CanopenReference.Download
import CanopenReference.DownloadActivation
import CanopenReference.DownloadGate
import CanopenReference.DownloadIntegrity
import CanopenReference.DownloadProgress
import CanopenReference.DownloadRecords
import CanopenReference.DownloadSafety
import CanopenReference.DownloadStream
import CanopenReference.DriveCommands
import CanopenReference.DriveRestart
import CanopenReference.ElapsedTime
import CanopenReference.FaultMailbox
import CanopenReference.ForeignTraffic
import CanopenReference.FreshTransmission
import CanopenReference.Handling
import CanopenReference.HostRoundTrip
import CanopenReference.IsoTp
import CanopenReference.IsoTpAgreement
import CanopenReference.IsoTpDeadlines
import CanopenReference.IsoTpDelivery
import CanopenReference.IsoTpEncoding
import CanopenReference.IsoTpLink
import CanopenReference.IsoTpPacing
import CanopenReference.IsoTpReceiver
import CanopenReference.IsoTpTransmitter
import CanopenReference.J1939
import CanopenReference.KeyExchange
import CanopenReference.Library.Attempts
import CanopenReference.Library.Buffer
import CanopenReference.Library.Clock
import CanopenReference.Library.Crc
import CanopenReference.Library.Fields
import CanopenReference.Library.Firsts
import CanopenReference.Library.History
import CanopenReference.Library.Journal
import CanopenReference.Library.Outlines
import CanopenReference.Library.Pieces
import CanopenReference.Library.Queue
import CanopenReference.Library.Ring
import CanopenReference.Library.Runs
import CanopenReference.Library.Statements
import CanopenReference.Library.Views
import CanopenReference.Library.Watched
import CanopenReference.Lifetime
import CanopenReference.MainLoop
import CanopenReference.MockCanopen
import CanopenReference.MultiDidRead
import CanopenReference.NmtAutoStart
import CanopenReference.NmtBootTimeout
import CanopenReference.NmtHeartbeat
import CanopenReference.NmtMaster
import CanopenReference.NmtReadiness
import CanopenReference.NmtReports
import CanopenReference.NmtSupervision
import CanopenReference.OutputLoop
import CanopenReference.OutputView
import CanopenReference.PartialErase
import CanopenReference.PeerSnapshot
import CanopenReference.PeerSupervision
import CanopenReference.PortHandle
import CanopenReference.PortLifecycle
import CanopenReference.PortQueue
import CanopenReference.PortWaiting
import CanopenReference.QueueRefusals
import CanopenReference.Reception
import CanopenReference.RequestDelivery
import CanopenReference.ResetAnswer
import CanopenReference.ResponseTransmission
import CanopenReference.RxRings
import CanopenReference.SafeFault
import CanopenReference.SafeOutputs
import CanopenReference.SdoSegments
import CanopenReference.SdoTraffic
import CanopenReference.SdoUpload
import CanopenReference.SecurityAnswers
import CanopenReference.SecurityAttempts
import CanopenReference.SecurityLevels
import CanopenReference.SecurityLockout
import CanopenReference.SecurityProvider
import CanopenReference.SequentialService
import CanopenReference.ServerHistory
import CanopenReference.ShippedServices
import CanopenReference.SpuriousLockout
import CanopenReference.Storage
import CanopenReference.StorageRestore
import CanopenReference.StoreWear
import CanopenReference.SuppressedResponses
import CanopenReference.TakeDown
import CanopenReference.TimedLoop
import CanopenReference.TimingStats
import CanopenReference.TransferBlocks
import CanopenReference.TransferExit
import CanopenReference.TransmitPdo
import CanopenReference.TxBacklog
import CanopenReference.TxQueue
import CanopenReference.Uds
import CanopenReference.UdsContexts
import CanopenReference.UdsDid
import CanopenReference.UdsFlowControl
import CanopenReference.UdsIsotp
import CanopenReference.UdsIsotpNode
import CanopenReference.UdsReplies
import CanopenReference.UdsResponses
import CanopenReference.UdsSession
import CanopenReference.UdsStm32
import CanopenReference.UdsTickOrder
import CanopenReference.VcanDevice
import CanopenReference.VcanReads
import CanopenReference.VcanStore
import CanopenReference.VcanTraffic
import CanopenReference.Watchdog
