/-
This file models the coroutine that serves a connection of the HTTP server.

Between two reads the coroutine runs without waiting for its connection to receive
anything, so it is a function of what `AsyncRead` returns, read after read. `AsyncRead`
returns the bytes of one successful `::read`, and nothing at the end of the stream,
after a failure, and on a closed connection. Its count is unsigned and never negative.
A request is passed to the router when it is complete.
-/

import Luce.Http.HttpRequest
import Luce.Io.Awaiter
import Luce.Json.Parser

namespace Luce

/-! ### Reading from a connection -/

/-- The loop of `AsyncRead`: it tries again after a failure that may pass. -/
def asyncRead (conn : TcpConnection) (size : Nat) : Bytes × TcpConnection :=
  match _ : readInnerAwaiter conn size with
  | (.ok bytes, next) => (bytes, next)
  | (.error errno, next) => if errno.retryable then asyncRead next size else ([], next)
termination_by conn.socket.events.length
decreasing_by exact readInnerAwaiter_error_events ‹_›

namespace Http

open TinyJson (isSpace isDigit)

/-! ### Numbers -/

/-- The number that a text begins with, behind spaces and a sign. -/
def readInteger (text : Bytes) : Option Int :=
  let text := text.dropWhile isSpace
  let unsigned := if text.head? = some (byte '-') || text.head? = some (byte '+') then text.tail
    else text
  let digits := unsigned.takeWhile isDigit
  let magnitude : Nat := digits.foldl (fun value digit => 10 * value + (digit - byte '0').toNat) 0
  if digits.isEmpty then none
  else some (if text.head? = some (byte '-') then -magnitude else magnitude)

/-- `std::stoi`. -/
def stoi (text : Bytes) : Except Fault Int :=
  match readInteger text with
  | none => .error .invalidArgument
  | some value => if -2 ^ 31 ≤ value ∧ value < 2 ^ 31 then .ok value else .error .outOfRange

/-- An `int` converted to `size_t`. -/
def sizeOf (value : Int) : Nat := (value % 2 ^ 64).toNat

/-! ### Serving a connection -/

def maxRequestSize : Nat := 1024 * 64

/-- `buffer[recv_len] = '\0'` and the text at `buffer.data()` behind that. The storage
of the buffer has `MAX_REQUEST_SIZE` bytes. -/
def received (chunk : Bytes) : Except Fault Bytes :=
  if chunk.length < maxRequestSize then .ok (cString chunk) else .error .bufferEnd

/-- What the coroutine is doing. -/
inductive Progress where
  /-- It reads the beginning of a request. -/
  | waiting
  /-- It reads more of the body of this request. -/
  | receiving (request : HttpRequest) (contentLen : Int)
  | returned
  | failed (fault : Fault)

/-- The coroutine, and the requests that it has passed to the router. -/
structure Serving where
  progress : Progress
  requests : List HttpRequest

namespace Serving

def initial : Serving := ⟨.waiting, []⟩

/-- `headers_["Connection"] == "close"`. -/
def asksToClose (request : HttpRequest) : Bool :=
  request.headers (ascii "Connection") = some (ascii "close")

/-- `ServerHTTP`, and whether the connection is kept. -/
def serve (serving : Serving) (request : HttpRequest) : Serving :=
  ⟨if asksToClose request then .returned else .waiting, serving.requests ++ [request]⟩

/-- The test of the loop that reads the body. -/
def receive (serving : Serving) (request : HttpRequest) (contentLen : Int) : Serving :=
  if request.body.length = sizeOf contentLen then serving.serve request
  else { serving with progress := .receiving request contentLen }

def fail (serving : Serving) (fault : Fault) : Serving :=
  { serving with progress := .failed fault }

/-- From the first read of a request on. -/
def start (serving : Serving) (chunk : Bytes) : Except Fault Serving := do
  let text ← received chunk
  let request ← HttpRequest.new.parse text
  match request.headers (ascii "Content-Length") with
  | none => pure (serving.serve request)
  | some value => do
    let contentLen ← stoi value
    pure (serving.receive request contentLen)

/-- From a further read of a body on. -/
def resume (serving : Serving) (request : HttpRequest) (contentLen : Int) (chunk : Bytes) :
    Except Fault Serving := do
  let text ← received chunk
  pure (serving.receive { request with body := request.body ++ text } contentLen)

/-- What the coroutine does with the result of a read. -/
def step (serving : Serving) (chunk : Bytes) : Serving :=
  let outcome : Except Fault Serving := match serving.progress with
    | .waiting => if chunk.isEmpty then .ok serving else serving.start chunk
    | .receiving request contentLen => serving.resume request contentLen chunk
    | .returned | .failed _ => .ok serving
  match outcome with
  | .ok next => next
  | .error fault => serving.fail fault

/-- A coroutine that has ended does not read any more. -/
theorem foldl_failed {serving : Serving} {fault : Fault} (failed : serving.progress = .failed fault)
    (reads : List Bytes) : reads.foldl step serving = serving :=
  List.foldl_fixed' (fun _ => by simp only [step, failed]) reads

theorem foldl_returned {serving : Serving} (returned : serving.progress = .returned)
    (reads : List Bytes) : reads.foldl step serving = serving :=
  List.foldl_fixed' (fun _ => by simp only [step, returned]) reads

/-! The first read of a request -/

section First

variable (requests : List HttpRequest) {chunk : Bytes} (some : chunk ≠ [])

include some

theorem step_waiting : step ⟨.waiting, requests⟩ chunk =
    match start ⟨.waiting, requests⟩ chunk with
    | .ok next => next
    | .error fault => fail ⟨.waiting, requests⟩ fault := by
  have nonempty : chunk.isEmpty = false := by simpa using some
  simp only [step, nonempty]
  rfl

theorem step_full (full : ¬ chunk.length < maxRequestSize) :
    step ⟨.waiting, requests⟩ chunk = ⟨.failed .bufferEnd, requests⟩ := by
  simp only [step_waiting requests some, start, received, if_neg full]
  rfl

variable (room : chunk.length < maxRequestSize)

include room

theorem step_malformed {fault : Fault}
    (parsed : HttpRequest.new.parse (cString chunk) = .error fault) :
    step ⟨.waiting, requests⟩ chunk = ⟨.failed fault, requests⟩ := by
  simp only [step_waiting requests some, start, received, if_pos room, bind, Except.bind, parsed]
  rfl

variable {request : HttpRequest} (parsed : HttpRequest.new.parse (cString chunk) = .ok request)

include parsed

theorem step_bodyless (absent : request.headers (ascii "Content-Length") = none) :
    step ⟨.waiting, requests⟩ chunk = serve ⟨.waiting, requests⟩ request := by
  simp only [step_waiting requests some, start, received, if_pos room, bind, Except.bind, parsed,
    absent]
  rfl

variable {value : Bytes} (present : request.headers (ascii "Content-Length") = .some value)

include present

theorem step_undeclared {fault : Fault} (number : stoi value = .error fault) :
    step ⟨.waiting, requests⟩ chunk = ⟨.failed fault, requests⟩ := by
  simp only [step_waiting requests some, start, received, if_pos room, bind, Except.bind, parsed,
    present, number]
  rfl

theorem step_declared {contentLen : Int} (number : stoi value = .ok contentLen) :
    step ⟨.waiting, requests⟩ chunk = receive ⟨.waiting, requests⟩ request contentLen := by
  simp only [step_waiting requests some, start, received, if_pos room, bind, Except.bind, parsed,
    present, number]
  rfl

end First

/-- A further read of a body. -/
theorem step_receiving (requests : List HttpRequest) (request : HttpRequest) (contentLen : Int)
    (chunk : Bytes) :
    step ⟨.receiving request contentLen, requests⟩ chunk =
      if chunk.length < maxRequestSize then
        receive ⟨.waiting, requests⟩ { request with body := request.body ++ cString chunk } contentLen
      else ⟨.failed .bufferEnd, requests⟩ := by
  by_cases room : chunk.length < maxRequestSize
  · simp only [step, resume, received, if_pos room]
    rfl
  · simp only [step, resume, received, if_neg room]
    rfl

end Serving

/-- `HttpServer::OnRequest`, as far as these reads take it. -/
def onRequest (reads : List Bytes) : Serving := reads.foldl Serving.step .initial

end Http

end Luce
