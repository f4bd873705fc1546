/-
This file decides when the coroutine that serves a connection comes to its end once the
peer is gone.

The outer loop goes on when it reads nothing, and the loop over a body reads until the
body has exactly the declared length. So neither ends by itself at the end of the
stream: the coroutine returns only behind a request that is complete and asks for the
connection to be closed.
-/

import Luce.Http.HttpServer

namespace Luce

open Library.Stream

namespace Http

/-! ### Complete requests -/

/-- These reads fill the body of the request up to the declared length. -/
inductive Fills (contentLen : Int) : HttpRequest → List Bytes → HttpRequest → Prop where
  | full {request : HttpRequest} (complete : request.body.length = sizeOf contentLen) :
      Fills contentLen request [] request
  | more {request result : HttpRequest} {chunk : Bytes} {chunks : List Bytes}
      (incomplete : request.body.length ≠ sizeOf contentLen)
      (room : chunk.length < maxRequestSize)
      (filled : Fills contentLen { request with body := request.body ++ cString chunk } chunks
        result) :
      Fills contentLen request (chunk :: chunks) result

/-- These reads are a request that is passed to the router. -/
inductive Completes : List Bytes → HttpRequest → Prop where
  | bodyless {chunk : Bytes} {request : HttpRequest} (some : chunk ≠ [])
      (room : chunk.length < maxRequestSize)
      (parsed : HttpRequest.new.parse (cString chunk) = .ok request)
      (absent : request.headers (ascii "Content-Length") = none) :
      Completes [chunk] request
  | filled {chunk value : Bytes} {chunks : List Bytes} {request result : HttpRequest}
      {contentLen : Int} (some : chunk ≠ []) (room : chunk.length < maxRequestSize)
      (parsed : HttpRequest.new.parse (cString chunk) = .ok request)
      (present : request.headers (ascii "Content-Length") = .some value)
      (number : stoi value = .ok contentLen) (filled : Fills contentLen request chunks result) :
      Completes (chunk :: chunks) result

/-- These reads begin with complete requests, the last of which asks for the connection
to be closed. Nothing may have been read before a request. -/
inductive Closes : List Bytes → Prop where
  | idle {reads : List Bytes} (later : Closes reads) : Closes ([] :: reads)
  | keep {chunks reads : List Bytes} {request : HttpRequest} (complete : Completes chunks request)
      (later : Closes reads) : Closes (chunks ++ reads)
  | close {chunks : List Bytes} {request : HttpRequest} (complete : Completes chunks request)
      (asks : Serving.asksToClose request = true) (reads : List Bytes) : Closes (chunks ++ reads)

/-- Behind a request that is passed on, the coroutine returns or goes on with the next. -/
def Onward (request : HttpRequest) (reads : List Bytes) : Prop :=
  Serving.asksToClose request = true ∨ Closes reads

/-- The reads fill the body of the request and go on behind it. -/
def FillsOnward (contentLen : Int) (request : HttpRequest) (reads : List Bytes) : Prop :=
  ∃ chunks later result, reads = chunks ++ later ∧ Fills contentLen request chunks result ∧
    Onward result later

theorem Completes.closes {chunks reads : List Bytes} {request : HttpRequest}
    (complete : Completes chunks request) (onward : Onward request reads) :
    Closes (chunks ++ reads) :=
  onward.elim (fun asks => .close complete asks reads) (.keep complete)

theorem Completes.ne_nil {chunks : List Bytes} {request : HttpRequest}
    (complete : Completes chunks request) :
    ∃ first others, chunks = first :: others ∧ first ≠ [] := by
  cases complete with
  | bodyless some => exact ⟨_, _, rfl, some⟩
  | filled some => exact ⟨_, _, rfl, some⟩

/-- The reads begin with an idle one, or with a complete request. -/
theorem Closes.cases {reads : List Bytes} (closes : Closes reads) :
    (∃ later, reads = [] :: later ∧ Closes later) ∨
      ∃ chunks request later, Completes chunks request ∧ reads = chunks ++ later ∧
        Onward request later := by
  cases closes with
  | idle later => exact .inl ⟨_, rfl, later⟩
  | keep complete later => exact .inr ⟨_, _, _, complete, rfl, .inr later⟩
  | close complete asks later => exact .inr ⟨_, _, _, complete, rfl, .inl asks⟩

theorem not_closes_nil : ¬ Closes [] := by
  intro closes
  obtain ⟨later, impossible, -⟩ | ⟨chunks, request, later, complete, split, -⟩ := closes.cases
  · cases impossible
  · obtain ⟨first, others, rfl, -⟩ := complete.ne_nil
    cases split

theorem closes_idle_iff {reads : List Bytes} : Closes ([] :: reads) ↔ Closes reads := by
  refine ⟨fun closes => ?_, .idle⟩
  obtain ⟨later, same, closes⟩ | ⟨chunks, request, later, complete, split, -⟩ := closes.cases
  · cases same
    exact closes
  · obtain ⟨first, others, rfl, some⟩ := complete.ne_nil
    cases split
    exact absurd rfl some

/-- The first read of a request: the request has no body to wait for, or it has. -/
theorem closes_cons_iff {chunk : Bytes} (some : chunk ≠ []) {reads : List Bytes} :
    Closes (chunk :: reads) ↔ chunk.length < maxRequestSize ∧
      ∃ request, HttpRequest.new.parse (cString chunk) = .ok request ∧
        (request.headers (ascii "Content-Length") = none ∧ Onward request reads ∨
          ∃ value contentLen, request.headers (ascii "Content-Length") = .some value ∧
            stoi value = .ok contentLen ∧ FillsOnward contentLen request reads) := by
  constructor
  · intro closes
    obtain ⟨later, same, -⟩ | ⟨chunks, request, later, complete, split, onward⟩ := closes.cases
    · cases same
      exact absurd rfl some
    cases complete with
    | bodyless _ room parsed absent =>
      cases split
      exact ⟨room, request, parsed, .inl ⟨absent, onward⟩⟩
    | filled _ room parsed present number filled =>
      cases split
      exact ⟨room, _, parsed, .inr ⟨_, _, present, number, _, _, _, rfl, filled, onward⟩⟩
  · rintro ⟨room, request, parsed, ⟨absent, onward⟩ |
      ⟨value, contentLen, present, number, chunks, later, result, rfl, filled, onward⟩⟩
    · exact (Completes.bodyless some room parsed absent).closes onward
    · exact (Completes.filled some room parsed present number filled).closes onward

theorem fillsOnward_full {contentLen : Int} {request : HttpRequest}
    (complete : request.body.length = sizeOf contentLen) {reads : List Bytes} :
    FillsOnward contentLen request reads ↔ Onward request reads := by
  constructor
  · rintro ⟨chunks, later, result, rfl, filled, onward⟩
    cases filled with
    | full => exact onward
    | more incomplete => exact absurd complete incomplete
  · exact fun onward => ⟨[], reads, request, rfl, .full complete, onward⟩

theorem not_fillsOnward_nil {contentLen : Int} {request : HttpRequest}
    (incomplete : request.body.length ≠ sizeOf contentLen) :
    ¬ FillsOnward contentLen request [] := by
  rintro ⟨chunks, later, result, split, filled, -⟩
  cases filled with
  | full complete => exact incomplete complete
  | more => cases split

theorem fillsOnward_cons {contentLen : Int} {request : HttpRequest}
    (incomplete : request.body.length ≠ sizeOf contentLen) {chunk : Bytes} {reads : List Bytes} :
    FillsOnward contentLen request (chunk :: reads) ↔ chunk.length < maxRequestSize ∧
      FillsOnward contentLen { request with body := request.body ++ cString chunk } reads := by
  constructor
  · rintro ⟨chunks, later, result, split, filled, onward⟩
    cases filled with
    | full complete => exact absurd complete incomplete
    | more _ room filled =>
      cases split
      exact ⟨room, _, _, _, rfl, filled, onward⟩
  · rintro ⟨room, chunks, later, result, rfl, filled, onward⟩
    exact ⟨chunk :: chunks, later, result, rfl, .more incomplete room filled, onward⟩

/-! ### The coroutine -/

namespace Serving

/-- The coroutine has reached `co_return`. -/
def Returned (serving : Serving) : Prop := serving.progress = .returned

theorem not_returned_failed (requests : List HttpRequest) (fault : Fault) (reads : List Bytes) :
    ¬ (reads.foldl step ⟨.failed fault, requests⟩).Returned := by
  rw [foldl_failed rfl]
  exact nofun

/-- What these reads make of a request that is passed on, if they make the coroutine
return from its outer loop whenever they should. -/
theorem serve_returned {reads : List Bytes}
    (waiting : ∀ requests, (reads.foldl step ⟨.waiting, requests⟩).Returned ↔ Closes reads)
    (serving : Serving) (request : HttpRequest) :
    (reads.foldl step (serving.serve request)).Returned ↔ Onward request reads := by
  unfold serve
  by_cases asks : asksToClose request = true
  · rw [if_pos asks, foldl_returned rfl]
    exact ⟨fun _ => .inl asks, fun _ => rfl⟩
  · rw [if_neg asks, waiting]
    exact ⟨.inr, fun onward => onward.resolve_left asks⟩

theorem receive_returned {reads : List Bytes}
    (waiting : ∀ requests, (reads.foldl step ⟨.waiting, requests⟩).Returned ↔ Closes reads)
    (receiving : ∀ requests request contentLen, request.body.length ≠ sizeOf contentLen →
      ((reads.foldl step ⟨.receiving request contentLen, requests⟩).Returned ↔
        FillsOnward contentLen request reads))
    (serving : Serving) (request : HttpRequest) (contentLen : Int) :
    (reads.foldl step (serving.receive request contentLen)).Returned ↔
      FillsOnward contentLen request reads := by
  unfold receive
  split
  case isTrue complete =>
    rw [serve_returned waiting, fillsOnward_full complete]
  case isFalse incomplete => exact receiving serving.requests request contentLen incomplete

/-- By induction on the reads, from both places where the coroutine reads. -/
theorem foldl_returned_iff (reads : List Bytes) :
    (∀ requests, (reads.foldl step ⟨.waiting, requests⟩).Returned ↔ Closes reads) ∧
      ∀ requests request contentLen, request.body.length ≠ sizeOf contentLen →
        ((reads.foldl step ⟨.receiving request contentLen, requests⟩).Returned ↔
          FillsOnward contentLen request reads) := by
  induction reads with
  | nil =>
    exact ⟨fun _ => ⟨nofun, fun closes => absurd closes not_closes_nil⟩,
      fun _ _ _ incomplete => ⟨nofun, fun fills => absurd fills (not_fillsOnward_nil incomplete)⟩⟩
  | cons chunk reads inductionHypothesis =>
    obtain ⟨waiting, receiving⟩ := inductionHypothesis
    constructor
    · intro requests
      rw [List.foldl_cons]
      by_cases some : chunk = []
      · subst some
        rw [closes_idle_iff]
        exact waiting requests
      · rw [closes_cons_iff some]
        by_cases room : chunk.length < maxRequestSize
        · rw [and_iff_right room]
          cases parsed : HttpRequest.new.parse (cString chunk) with
          | error fault =>
            rw [step_malformed requests some room parsed]
            exact ⟨fun returned => absurd returned (not_returned_failed _ _ _), nofun⟩
          | ok request =>
            simp only [Except.ok.injEq, exists_eq_left']
            cases length : request.headers (ascii "Content-Length") with
            | none =>
              rw [step_bodyless requests some room parsed length, serve_returned waiting]
              simp
            | some value =>
              cases number : stoi value with
              | error fault =>
                rw [step_undeclared requests some room parsed length number]
                refine ⟨fun returned => absurd returned (not_returned_failed _ _ _), ?_⟩
                simp [number]
              | ok contentLen =>
                rw [step_declared requests some room parsed length number,
                  receive_returned waiting receiving]
                simp [number]
        · rw [step_full requests some room]
          exact ⟨fun returned => absurd returned (not_returned_failed _ _ _),
            fun closes => absurd closes.1 room⟩
    · intro requests request contentLen incomplete
      rw [List.foldl_cons, step_receiving, fillsOnward_cons incomplete]
      split
      case isTrue room =>
        rw [receive_returned waiting receiving]
        simp [room]
      case isFalse full =>
        rw [foldl_failed rfl]
        exact ⟨nofun, fun fills => absurd fills.1 full⟩

/-! ### The end of the stream -/

/-- A request whose body is still being read is not complete. -/
def Unfilled (serving : Serving) : Prop :=
  ∀ request contentLen, serving.progress = .receiving request contentLen →
    request.body.length ≠ sizeOf contentLen

theorem Unfilled.serve (serving : Serving) (request : HttpRequest) :
    (serving.serve request).Unfilled := by
  unfold Serving.serve
  split <;> exact nofun

theorem Unfilled.receive (serving : Serving) (request : HttpRequest) (contentLen : Int) :
    (serving.receive request contentLen).Unfilled := by
  unfold Serving.receive
  split
  case isTrue => exact .serve serving request
  case isFalse incomplete =>
    intro _ _ same
    cases same
    exact incomplete

theorem Unfilled.step {serving : Serving} (unfilled : serving.Unfilled) (chunk : Bytes) :
    (serving.step chunk).Unfilled := by
  obtain ⟨progress, requests⟩ := serving
  cases progress with
  | waiting =>
    by_cases some : chunk = []
    · subst some
      exact nofun
    by_cases room : chunk.length < maxRequestSize
    · cases parsed : HttpRequest.new.parse (cString chunk) with
      | error fault =>
        rw [step_malformed requests some room parsed]
        exact nofun
      | ok request =>
        cases length : request.headers (ascii "Content-Length") with
        | none =>
          rw [step_bodyless requests some room parsed length]
          exact .serve _ request
        | some value =>
          cases number : stoi value with
          | error fault =>
            rw [step_undeclared requests some room parsed length number]
            exact nofun
          | ok contentLen =>
            rw [step_declared requests some room parsed length number]
            exact .receive _ request contentLen
    · rw [step_full requests some room]
      exact nofun
  | receiving request contentLen =>
    rw [step_receiving]
    split
    · exact .receive _ _ contentLen
    · exact nofun
  | returned => exact nofun
  | failed => exact nofun

theorem Unfilled.foldl {serving : Serving} (unfilled : serving.Unfilled) (reads : List Bytes) :
    (reads.foldl Serving.step serving).Unfilled := by
  induction reads generalizing serving with
  | nil => exact unfilled
  | cons chunk reads inductionHypothesis => exact inductionHypothesis (unfilled.step chunk)

/-- Reading nothing gets the coroutine nowhere. -/
theorem step_nothing {serving : Serving} (unfilled : serving.Unfilled) :
    serving.step [] = serving := by
  obtain ⟨progress, requests⟩ := serving
  cases progress with
  | waiting => rfl
  | receiving request contentLen =>
    have incomplete := unfilled request contentLen rfl
    have room : ([] : Bytes).length < maxRequestSize := by decide
    have same : request.body ++ cString [] = request.body := List.append_nil _
    rw [step_receiving, if_pos room, same, Serving.receive, if_neg incomplete]
  | returned => rfl
  | failed => rfl

theorem foldl_nothing {serving : Serving} (unfilled : serving.Unfilled) (count : Nat) :
    (List.replicate count []).foldl Serving.step serving = serving := by
  induction count with
  | zero => rfl
  | succ count inductionHypothesis =>
    rw [List.replicate_succ, List.foldl_cons, step_nothing unfilled, inductionHypothesis]

/-- Behind some reads, nothing more is read. -/
theorem returned_behind (reads : List Bytes) (count : Nat) :
    (onRequest (reads ++ List.replicate count [])).Returned ↔ Closes reads := by
  have unfilled : Serving.initial.Unfilled := nofun
  rw [onRequest, List.foldl_append, Serving.foldl_nothing (unfilled.foldl reads)]
  exact (Serving.foldl_returned_iff reads).1 []

end Serving

/-- Once nothing more is read, the coroutine returns exactly if the reads before begin
with complete requests, the last of which asks for the connection to be closed. -/
theorem onRequest_returns_iff (reads : List Bytes) :
    (∃ count, (onRequest (reads ++ List.replicate count [])).Returned) ↔ Closes reads := by
  simp only [Serving.returned_behind, exists_const]

/-- The peer is gone behind a request that has been answered. -/
theorem onRequest_spins :
    ¬ ∃ count, (onRequest ([ascii "GET / HTTP/1.1\r\nHost:luce\r\n\r\n"] ++
      List.replicate count [])).Returned := by
  rintro ⟨count, returned⟩
  have unfilled : Serving.initial.Unfilled := nofun
  rw [onRequest, List.foldl_append, Serving.foldl_nothing (unfilled.foldl _)] at returned
  have waits : ([ascii "GET / HTTP/1.1\r\nHost:luce\r\n\r\n"].foldl Serving.step
      Serving.initial).progress = .waiting := rfl
  rw [Serving.Returned, waits] at returned
  cases returned

end Http

/-! ### Connections whose peer is gone -/

/-- What is left to be read, and how often reading it is delayed. -/
def TcpConnection.remaining (conn : TcpConnection) : Nat :=
  conn.socket.pending.length + conn.socket.events.length

theorem TcpConnection.read_remaining {conn next : TcpConnection} {len : Nat} {bytes : Bytes}
    (asked : 0 < len) (success : conn.read len = (.ok bytes, next)) :
    bytes = [] ∧ next = conn ∨ next.remaining < conn.remaining := by
  obtain ⟨got, rest, events, closed⟩ := TcpConnection.read_ok success
  have allowed := allowance_pos asked conn.socket.events
  unfold remaining
  rw [rest, events, List.length_drop, List.length_tail]
  by_cases ended : conn.remaining = 0
  · obtain ⟨nothing, unscheduled⟩ := Nat.add_eq_zero_iff.mp ended
    rw [List.length_eq_zero_iff] at nothing unscheduled
    rw [nothing, List.take_nil] at got
    rw [nothing, List.drop_nil] at rest
    rw [unscheduled, List.tail_nil] at events
    obtain ⟨isClosed, ⟨pending, schedule⟩⟩ := conn
    obtain ⟨isClosed', ⟨pending', schedule'⟩⟩ := next
    cases closed
    cases nothing
    cases unscheduled
    cases rest
    cases events
    exact .inl ⟨got, rfl⟩
  · unfold remaining at ended
    right
    omega

theorem TcpConnection.read_error_remaining {conn next : TcpConnection} {len : Nat} {errno : Errno}
    (failed : conn.read len = (.error errno, next)) : next.remaining < conn.remaining := by
  obtain ⟨events, rest, -⟩ := TcpConnection.read_error failed
  unfold remaining
  rw [events, rest, List.length_cons]
  omega

/-- A read brings nothing and changes nothing, or less is left behind it. -/
theorem asyncRead_remaining (conn : TcpConnection) {size : Nat} (asked : 0 < size) :
    asyncRead conn size = ([], conn) ∨ (asyncRead conn size).2.remaining < conn.remaining := by
  have failing : ∀ {conn next : TcpConnection} {errno : Errno},
      readInnerAwaiter conn size = (.error errno, next) → next.remaining < conn.remaining := by
    intro conn next errno awaited
    obtain ⟨-, impossible, -⟩ | ⟨_, impossible, -⟩ | ⟨_, _, first, second⟩ :=
      readInnerAwaiter_cases awaited
    · cases impossible
    · cases impossible
    · exact (TcpConnection.read_error_remaining second).trans
        (TcpConnection.read_error_remaining first)
  fun_induction asyncRead conn size with
  | case1 conn bytes next awaited =>
    obtain ⟨-, nothing, rfl⟩ | ⟨_, same, attempt⟩ | ⟨_, resumed, first, second⟩ :=
      readInnerAwaiter_cases awaited
    · cases nothing
      exact .inl rfl
    · cases same
      exact (TcpConnection.read_remaining asked attempt).imp_left
        fun ⟨nothing, same⟩ => by rw [nothing, same]
    · have less := TcpConnection.read_error_remaining first
      right
      obtain ⟨-, rfl⟩ | fewer := TcpConnection.read_remaining asked second
      · exact less
      · exact fewer.trans less
  | case2 conn errno next awaited retryable inductionHypothesis =>
    have less := failing awaited
    right
    obtain same | fewer := inductionHypothesis
    · rw [same]
      exact less
    · exact fewer.trans less
  | case3 conn errno next awaited fatal => exact .inr (failing awaited)

namespace Http

/-- What `AsyncRead` returns, time after time. -/
def asyncReads : Nat → TcpConnection → List Bytes
  | 0, _ => []
  | count + 1, conn =>
    (asyncRead conn maxRequestSize).1 :: asyncReads count (asyncRead conn maxRequestSize).2

theorem asyncReads_ended {conn : TcpConnection}
    (ended : asyncRead conn maxRequestSize = ([], conn)) (count : Nat) :
    asyncReads count conn = List.replicate count [] := by
  induction count with
  | zero => rfl
  | succ count inductionHypothesis =>
    rw [asyncReads, ended, inductionHypothesis, List.replicate_succ]

/-- The reads of any connection are some first ones, and then none that brings anything. -/
theorem asyncReads_eq (conn : TcpConnection) :
    ∃ reads, ∀ count, asyncReads (reads.length + count) conn = reads ++ List.replicate count [] := by
  induction remaining : conn.remaining using Nat.strongRecOn generalizing conn with
  | ind left inductionHypothesis =>
    obtain ended | fewer := asyncRead_remaining conn (show 0 < maxRequestSize by decide)
    · exact ⟨[], fun count => by
        rw [List.length_nil, Nat.zero_add, List.nil_append, asyncReads_ended ended]⟩
    · obtain ⟨reads, later⟩ := inductionHypothesis _ (remaining ▸ fewer) _ rfl
      refine ⟨(asyncRead conn maxRequestSize).1 :: reads, fun count => ?_⟩
      rw [List.length_cons, Nat.succ_add, asyncReads, later, List.cons_append]

/-- Once the first reads of a connection are over, the coroutine that serves it has
returned, or never will. -/
theorem onRequest_asyncReads (conn : TcpConnection) : ∃ reads, ∀ count,
    asyncReads (reads.length + count) conn = reads ++ List.replicate count [] ∧
      ((onRequest (asyncReads (reads.length + count) conn)).Returned ↔ Closes reads) := by
  obtain ⟨reads, later⟩ := asyncReads_eq conn
  refine ⟨reads, fun count => ⟨later count, ?_⟩⟩
  rw [later]
  exact Serving.returned_behind reads count

end Http

end Luce
