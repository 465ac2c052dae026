import Esp32Cam.Lib.Run
import Esp32Cam.Bft.FileSystem
import Esp32Cam.Bft.FlashMemoryTransferImplementor
import Esp32Cam.Bft.FlashFlushing
import Esp32Cam.Bft.SaluteFlashImage
import Esp32Cam.Mav.BftFtpClient
import Esp32Cam.Mav.FtpTimerGuard
import Esp32Cam.Mav.FtpAnswers
import Esp32Cam.Mav.FtpSession
import Esp32Cam.Mav.FtpEof
import Esp32Cam.Mav.FtpUpload
import Esp32Cam.Mav.FtpChunk
import Esp32Cam.Mav.FtpWrites
import Esp32Cam.Mav.FtpServer
import Esp32Cam.Mav.FtpOutcome
import Esp32Cam.Bdg.Receiver
import Esp32Cam.Lib.Framing
import Esp32Cam.Mav.Dispatcher
import Esp32Cam.Bdg.EndpointVariant
import Esp32Cam.Bdg.RoutingRules
import Esp32Cam.Lib.FindIf
import Esp32Cam.Sock.Api
import Esp32Cam.Lib.PartialRun
import Esp32Cam.Sock.OpenSockets
import Esp32Cam.Mav.GsNetwork
import Esp32Cam.Mav.GsNetworkRoutes
import Esp32Cam.Mav.GsNetworkAcks
import Esp32Cam.Bdg.NotificationCycles
import Esp32Cam.Mav.RoutingCycles
import Esp32Cam.Mav.Bridging
import Esp32Cam.Cam.Ov2640
import Esp32Cam.Trk.Tracking
import Esp32Cam.Trk.Threads
import Esp32Cam.Trk.Stopping
import Esp32Cam.Trk.Restoring
import Esp32Cam.Lib.Entries
import Esp32Cam.Mod.CardFaults
import Esp32Cam.Mod.Parameter
import Esp32Cam.Mod.ParameterMap
import Esp32Cam.Http.FwUpload
import Esp32Cam.Http.FileUnderTransfer
import Esp32Cam.Mav.BufferedFileTransfer
import Esp32Cam.Mav.FetchFile
import Esp32Cam.Mav.FetchOutcome
import Esp32Cam.Mav.FetchResidue
import Esp32Cam.Mav.Microservice
import Esp32Cam.Mav.Wifi
import Esp32Cam.Mav.Camera
import Esp32Cam.Mav.ApVer
import Esp32Cam.Mav.Tracking
import Esp32Cam.Mav.Aggregate
import Esp32Cam.Lib.Mutex
import Esp32Cam.Sock.Locking
import Esp32Cam.Lib.Recent
import Esp32Cam.Mav.CameraHistory
import Esp32Cam.Cam.RecMjpgAvi
import Esp32Cam.Http.Control
import Esp32Cam.Ut.CircularBuffer
import Esp32Cam.Ut.CircularSwap
import Esp32Cam.Uart.Task
import Esp32Cam.Mav.FtpGivesUp
import Esp32Cam.Bdg.RuleMap
import Esp32Cam.Lib.Plan
import Esp32Cam.Bft.FlashPlan
import Esp32Cam.Bft.FlashRecovery
import Esp32Cam.Bft.FlashPageBuffer
import Esp32Cam.Sys.EraseLog
import Esp32Cam.Bft.FlashErasing
import Esp32Cam.Bft.FlashHeader
import Esp32Cam.Bft.FlushingBufferFileSystem
import Esp32Cam.Bft.FlushingAppend
import Esp32Cam.Bft.FileLifecycle
import Esp32Cam.Bft.RamCursor
import Esp32Cam.Http.Reception
import Esp32Cam.Http.UploadSuccess
import Esp32Cam.Mav.GsNetworkPayload
import Esp32Cam.Mav.GsNetworkReceive
import Esp32Cam.Lib.Bands
import Esp32Cam.Ut.WorkQueue
import Esp32Cam.Ut.ContinuousTasks
import Esp32Cam.Mav.ResponseBuffer
import Esp32Cam.Trk.Roi
import Esp32Cam.Trk.WriteResponses
import Esp32Cam.Wifi.Credentials
import Esp32Cam.Lib.CString
import Esp32Cam.Wifi.Configuration
import Esp32Cam.Wifi.Connect
import Esp32Cam.Wifi.Requests
import Esp32Cam.Wifi.Restart
import Esp32Cam.Bft.HttpFetch
import Esp32Cam.Ver.VersionParser
import Esp32Cam.Lib.ShiftRegister
import Esp32Cam.Ut.Crc32Register
import Esp32Cam.Bft.FlashVerification
import Esp32Cam.Cam.FrameSizeWrite
import Esp32Cam.Cam.RecFrame
import Esp32Cam.Zd35.Addresses
import Esp32Cam.Lib.Routine
import Esp32Cam.Zd35.Driver
import Esp32Cam.Zd35.PageCache
import Esp32Cam.Zd35.FlashMemory
import Esp32Cam.Lib.Iteration
import Esp32Cam.Lib.Refinement
import Esp32Cam.Ut.CircularQueue
import Esp32Cam.Ut.CircularCounter
import Esp32Cam.Ut.PosArray
import Esp32Cam.Ut.SwapBatches
import Esp32Cam.Ut.InstanceRegistry
import Esp32Cam.Bdg.ReceiverRegistry
import Esp32Cam.Avi.Avilib
import Esp32Cam.Avi.WrittenFile
import Esp32Cam.Cam.VideoFile
import Esp32Cam.Zd35.Device
import Esp32Cam.Sd.SdFat
import Esp32Cam.Cam.Captures
import Esp32Cam.Cam.Streaming
import Esp32Cam.Bft.FlashingSession
import Esp32Cam.Bft.FlashedFile
import Esp32Cam.Bft.FetchedFile
