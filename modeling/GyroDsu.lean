import GyroDsu.Lib.Runs
import GyroDsu.Lib.LittleEndian
import GyroDsu.Lib.MachineInt
import GyroDsu.Lib.Ieee
import GyroDsu.Lib.GapFill
import GyroDsu.Lib.GapTwins
import GyroDsu.Lib.Crc
import GyroDsu.Lib.CrcPolynomial
import GyroDsu.Lib.Thinning
import GyroDsu.Lib.Mailbox
import GyroDsu.Lib.Monitor
import GyroDsu.Lib.Numerals
import GyroDsu.Pipeline.SignalOut
import GyroDsu.Pipeline.PipeOut
import GyroDsu.Pipeline.LatestValue
import GyroDsu.Pipeline.Flushed
import GyroDsu.Pipeline.Serve
import GyroDsu.Pipeline.Waits
import GyroDsu.Pipeline.Thread
import GyroDsu.Hiddev.DeviceRead
import GyroDsu.Hiddev.ReadData
import GyroDsu.Hiddev.CompleteFrames
import GyroDsu.Hiddev.FrameCheck
import GyroDsu.Hiddev.Chunks
import GyroDsu.Hiddev.ServeFrame
import GyroDsu.Hiddev.Consumers
import GyroDsu.Hiddev.Served
import GyroDsu.Hiddev.Snapshot
import GyroDsu.Hiddev.Rounds
import GyroDsu.Hiddev.ProcessData
import GyroDsu.Sdgyro.SdHidFrame
import GyroDsu.Sdgyro.CemuhookAdapter
import GyroDsu.Sdgyro.Session
import GyroDsu.Sdgyro.Timeline
import GyroDsu.Sdgyro.Isolation
import GyroDsu.Sdgyro.Delivery
import GyroDsu.Sdgyro.Grab
import GyroDsu.Cemuhook.Protocol
import GyroDsu.Cemuhook.Checksum
import GyroDsu.Cemuhook.ServerAnswers
import GyroDsu.Cemuhook.InFlight
import GyroDsu.Cemuhook.InfoRequests
import GyroDsu.Cemuhook.Server
import GyroDsu.Cemuhook.Lifecycle
import GyroDsu.Cemuhook.Shutdown
import GyroDsu.Cemuhook.Subscriptions
import GyroDsu.Cemuhook.ForeignDatagrams
import GyroDsu.Cemuhook.Broadcast
import GyroDsu.Cemuhook.Stateless
import GyroDsu.Hiddev.Registry
import GyroDsu.Hiddev.StopServe
import GyroDsu.Hiddev.Wakeup
import GyroDsu.Hiddev.Restarts
import GyroDsu.Hiddev.Quiescence
import GyroDsu.Hiddev.MissedTicks
import GyroDsu.Hiddev.Stopping
import GyroDsu.Hiddev.Restart
import GyroDsu.Hiddev.RecentFrames
import GyroDsu.Hiddev.HiddevFinder
import GyroDsu.Hiddev.InputFile
import GyroDsu.Hiddev.HidApiDev
import GyroDsu.Hiddev.InputDevice
import GyroDsu.Lib.IeeeExact
import GyroDsu.Lib.IeeeRounding
import GyroDsu.Sdgyro.GyroMapping
import GyroDsu.Sdgyro.RepeatedFrames
import GyroDsu.Sdgyro.Smoothing
import GyroDsu.Sdgyro.Acceleration
import GyroDsu.Sdgyro.GyroReenable
import GyroDsu.Sdgyro.Modes
import GyroDsu.Sdgyro.CounterShift
import GyroDsu.Cemuhook.Streaming
import GyroDsu.Cemuhook.EndToEnd
import GyroDsu.Cemuhook.SubscriptionTable
