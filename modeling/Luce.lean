import Luce.Timer.Firing
import Luce.Timer.Order
import Luce.Codec.RoundTrip
import Luce.Rpc.Calls
import Luce.Json.RoundTrip
import Luce.Io.Packets
import Luce.Rpc.ClientReading
import Luce.Rpc.Sending
import Luce.Reactor.Accepting
import Luce.Reactor.Dispatch
import Luce.Reactor.Lifetime
import Luce.Http.Segmentation
import Luce.Http.Ending
import Luce.Http.Router
import Luce.Concurrency.ThreadPool
import Luce.Concurrency.Scheduling
import Luce.Concurrency.Shutdown
import Luce.Concurrency.QueueIndices
import Luce.Concurrency.CountDownLatch
import Luce.Codec.TinyPBRoundTrip
import Luce.Codec.TinyPBSafety
import Luce.Coroutine.Awaiting
import Luce.Coroutine.FrameLifetime
import Luce.Rpc.Pairing
import Luce.Rpc.BrokenOff
import Luce.Io.BufOwnership
import Luce.Http.Responses
import Luce.Json.Shape
import Luce.Json.Integers
import Luce.Json.Quotes
import Luce.Json.Consumption
import Luce.Json.Accesses
import Luce.Io.AsyncWrite
import Luce.Http.Replacing
import Luce.Reactor.Interest
import Luce.Reactor.SubReactors
import Luce.Timer.Bookkeeping
import Luce.Timer.Sifting
import Luce.Http.Headers
import Luce.Http.Malformed
import Luce.Http.Url
import Luce.Http.ReadBuffer
import Luce.Concurrency.Popping
import Luce.Concurrency.PoolWaking
import Luce.Rpc.Network
import Luce.Rpc.RemoteCalls
import Luce.Rpc.Loops
import Luce.Http.Exchange
import Luce.Timer.Queue
import Luce.Json.Mapping
import Luce.Http.Timeouts
import Luce.Reactor.WorkPool
import Luce.Concurrency.CoWaking
import Luce.Reactor.EventLoop
import Luce.Reactor.Readiness
import Luce.Reactor.Waking
import Luce.Reactor.Operations
