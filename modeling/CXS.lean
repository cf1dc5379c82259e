import CXS.Util.Binary
import CXS.Util.Bytes
import CXS.Util.Chunks
import CXS.Util.Keyed
import CXS.Util.LTS
import CXS.Util.Ledger
import CXS.Util.Lines
import CXS.Util.Memcmp
import CXS.Util.OrderedSet
import CXS.Util.PrefixFree
import CXS.Util.AddressText
import CXS.ByteArray.Capacity
import CXS.ByteArray.RoundTrip
import CXS.ByteArray.Varint
import CXS.ByteArray.Signed
import CXS.ByteArray.Strings
import CXS.ByteArray.Floats
import CXS.ByteArray.Copies
import CXS.ByteArray.Buffers
import CXS.ByteArray.Receive
import CXS.ByteArray.Files
import CXS.Stream.FixSize
import CXS.Http.KeepAlive
import CXS.Http.Framing
import CXS.Http.Server
import CXS.Http.Execute
import CXS.Http.Method
import CXS.Config.Lookup
import CXS.Config.Load
import CXS.Config.Listeners
import CXS.Config.RoundTrip
import CXS.Log.Appenders
import CXS.Log.Reload
import CXS.Log.Pattern
import CXS.Log.Yaml
import CXS.Timer.Expired
import CXS.Timer.Run
import CXS.Timer.Sections
import CXS.Timer.Wakeup
import CXS.Timer.Returns
import CXS.Timer.Deadline
import CXS.Scheduler.Exclusion
import CXS.Scheduler.Queue
import CXS.Scheduler.Stopping
import CXS.Scheduler.Pinning
import CXS.IOManager.Dispatch
import CXS.IOManager.Sections
import CXS.IOManager.Waiters
import CXS.IOManager.Tickle
import CXS.IOManager.Stop
import CXS.IOManager.EpollTimeout
import CXS.IOManager.Slots
import CXS.Hook.Contexts
import CXS.Hook.Flags
import CXS.Hook.Fcntl
import CXS.Hook.Timeout
import CXS.Hook.Reuse
import CXS.Hook.Bounds
import CXS.Hook.Sleep
import CXS.Socket.Cache
import CXS.Socket.TCPServer
import CXS.Address.Basic
import CXS.Address.IPv4
import CXS.Address.IPv6
import CXS.Address.Lookup
import CXS.Address.Order
import CXS.Address.Text
import CXS.Http.Grammar
import CXS.Http.RequestRoundTrip
import CXS.Http.ResponseRoundTrip
import CXS.Http.SessionRoundTrip
import CXS.ByteArray.Typed
import CXS.Fiber.Basic
import CXS.Fiber.Coroutines
import CXS.Fiber.Refinement
import CXS.Fiber.SchedulerRun
import CXS.Thread.Locks
import CXS.Thread.Start
import CXS.Hook.Results
