/-
This file models the HTTP server with all of its connections.

On each connection the coroutine `OnRequest` reads a request, runs the handler that the router
has for it, and writes the response before it reads on. A step is what a coroutine does with the
result of one `AsyncRead`, a step of its `AsyncWrite`, or the closing of its connection by a
timer; the steps of all connections come in whatever order, and the handlers of all of them work
on the same state. So the server answers the requests one after the other, and what a
connection has sent are the fronts of its responses.

`AcceptLoop` commits each connection to `work_thread_pool_`, so until a coroutine first waits it
may run beside others. That a handler runs in one step is assumed of the handlers: those that
share something have to see to it that no other one comes between.
-/

import Luce.Http.Ending
import Luce.Http.Router
import Luce.Io.AsyncWrite
import Luce.Library.Serving

namespace Luce.Http

open Library.Transition Library.Serving

/-! ### Answering a request -/

/-- A handler reads the request in its context, and fills the response. -/
abbrev HandleFunc (State : Type) := HttpContext → State → HttpResponse × State

/-- `std::make_shared<HttpResponse>()`. -/
def HttpResponse.new : HttpResponse := ⟨[], 0, [], []⟩

/-- `ServerHTTP`, up to where it sends what the response holds then. -/
def serverHTTP {State : Type} (iteration : Iteration) (router : Router (HandleFunc State))
    (request : HttpRequest) (state : State) : Bytes × State :=
  let response := HttpResponse.new.setHTTPVersion request.httpVersion
  match router.handle iteration (.new request response) with
  | .invoked handler context => ((handler context state).1.buffer, (handler context state).2)
  | .responded context => (context.res.buffer, state)

/-! ### Sessions -/

inductive SessionPhase where
  /-- Its coroutine reads, or has ended. -/
  | reading (conn : WriteConnection)
  /-- Its coroutine waits for `AsyncWrite`. -/
  | sending (buffer : IOBuffer) (writer : AsyncWrite)
deriving DecidableEq

/-- The connection as its coroutine sees it. -/
def SessionPhase.conn : SessionPhase → WriteConnection
  | .reading conn => conn
  | .sending _ writer => writer.conn

/-- The coroutine does not read any more. -/
def Progress.ended : Progress → Bool
  | .waiting | .receiving _ _ => false
  | .returned | .failed _ => true

/-- A connection with its coroutine. -/
structure Session where
  serving : Serving
  phase : SessionPhase
  /-- How many responses `SendResponse` has logged as not finished. -/
  unfinished : Nat

inductive SessionStep where
  /-- `AsyncRead` returns this. -/
  | receive (chunk : Bytes)
  /-- A step of `AsyncWrite`. -/
  | write (label : AsyncWriteStep)
  /-- `SendResponse` goes on behind `AsyncWrite`. -/
  | finish
  /-- A timer closes the connection. -/
  | close
deriving DecidableEq

/-- What `AsyncRead` returns in a step. -/
def SessionStep.reads : SessionStep → List Bytes
  | .receive chunk => [chunk]
  | .write _ | .finish | .close => []

namespace Session

/-- A connection that has been accepted. -/
def accepted (conn : WriteConnection) : Session := ⟨.initial, .reading conn, 0⟩

/-- What has been sent. -/
def wire (session : Session) : Bytes := session.phase.conn.socket.accepted

variable {State : Type} (answer : HttpRequest → State → Bytes × State)

/-- The coroutine goes on with what it has read, to the next read or to `AsyncWrite`. No string
is longer than a `size_t` can say, and nothing is read on a closed connection. -/
def receive (session : Session) (conn : WriteConnection) (chunk : Bytes) (state : State) :
    Option (Session × State) :=
  if session.serving.progress.ended ∨ conn.isClosed ∧ chunk ≠ [] then none
  else
    let serving := session.serving.step chunk
    match serving.requests[session.serving.requests.length]? with
    | none => some ({ session with serving }, state)
    | some request =>
      let response := answer request state
      if small : response.1.length < 2 ^ 64 then
        let buffer : IOBuffer := ⟨response.1, small⟩
        some ({ session with serving, phase := .sending buffer (.initial buffer conn) }, response.2)
      else none

def step (session : Session) (state : State) : SessionStep → Option (Session × State)
  | .receive chunk =>
    match session.phase with
    | .reading conn => session.receive answer conn chunk state
    | .sending _ _ => none
  | .write label =>
    match session.phase with
    | .reading _ => none
    | .sending buffer writer => (writer.step buffer label).map fun writer =>
        ({ session with phase := .sending buffer writer }, state)
  | .finish =>
    match session.phase with
    | .sending buffer ⟨.returned res _, _, _, conn⟩ =>
      some ({ session with
        phase := .reading conn
        unfinished :=
          if res ≠ buffer.val.length then session.unfinished + 1 else session.unfinished }, state)
    | _ => none
  | .close =>
    match session.phase with
    | .reading conn =>
      some ({ session with phase := .reading { conn with isClosed := true } }, state)
    | .sending buffer writer =>
      some ({ session with
        phase := .sending buffer { writer with conn := { writer.conn with isClosed := true } } },
        state)

end Session

/-- The server with all of its connections. -/
structure Sessions (State Client : Type) where
  state : State
  sessions : Client → Session

namespace Sessions

variable {State Client : Type} [DecidableEq Client]
  (answer : HttpRequest → State → Bytes × State)

def accepted (state : State) (conns : Client → WriteConnection) : Sessions State Client :=
  ⟨state, fun client => .accepted (conns client)⟩

def step (server : Sessions State Client) (label : Client × SessionStep) :
    Option (Sessions State Client) :=
  ((server.sessions label.1).step answer server.state label.2).map fun moved =>
    ⟨moved.2, Function.update server.sessions label.1 moved.1⟩

end Sessions

/-- What `AsyncRead` has returned on this connection. -/
def readOn {Client : Type} [DecidableEq Client] (client : Client)
    (labels : List (Client × SessionStep)) : List Bytes :=
  labels.flatMap fun label => if label.1 = client then label.2.reads else []

/-! ### What has been sent -/

/-- These responses have been sent, of which so many have been cut short, and this is on the
wire. -/
inductive Sent : List Bytes → Nat → Bytes → Prop
  | nothing : Sent [] 0 []
  | whole {replies : List Bytes} {cuts : Nat} {wire : Bytes} (sent : Sent replies cuts wire)
      (reply : Bytes) : Sent (replies ++ [reply]) cuts (wire ++ reply)
  | cut {replies : List Bytes} {cuts : Nat} {wire front reply : Bytes}
      (sent : Sent replies cuts wire) (part : front <+: reply) (short : front ≠ reply) :
      Sent (replies ++ [reply]) (cuts + 1) (wire ++ front)

/-- `SendResponse` notices when a response has been cut short. -/
theorem Sent.finish {replies : List Bytes} {cuts size : Nat} {wire : Bytes}
    (sent : Sent replies cuts wire) (reply : Bytes) (fits : size ≤ reply.length) :
    Sent (replies ++ [reply]) (if size ≠ reply.length then cuts + 1 else cuts)
      (wire ++ reply.take size) := by
  split
  case isTrue short =>
    refine .cut sent (List.take_prefix size reply) fun same => short ?_
    rw [← List.length_take_of_le fits, same]
  case isFalse whole =>
    rw [not_not.mp whole, List.take_length]
    exact .whole sent reply

theorem Sent.fronts {replies : List Bytes} {cuts : Nat} {wire : Bytes}
    (sent : Sent replies cuts wire) :
    ∃ fronts, List.Forall₂ (· <+: ·) fronts replies ∧ wire = fronts.flatten := by
  induction sent with
  | nothing => exact ⟨[], .nil, rfl⟩
  | whole sent reply inductionHypothesis =>
    obtain ⟨fronts, fit, rfl⟩ := inductionHypothesis
    refine ⟨fronts ++ [reply], List.rel_append fit (.cons (List.prefix_refl _) .nil), ?_⟩
    rw [List.flatten_concat]
  | @cut replies cuts wire front reply sent part short inductionHypothesis =>
    obtain ⟨fronts, fit, rfl⟩ := inductionHypothesis
    refine ⟨fronts ++ [front], List.rel_append fit (.cons part .nil), ?_⟩
    rw [List.flatten_concat]

theorem Sent.uncut {replies : List Bytes} {cuts : Nat} {wire : Bytes}
    (sent : Sent replies cuts wire) (all : cuts = 0) : wire = replies.flatten := by
  induction sent with
  | nothing => rfl
  | whole sent reply inductionHypothesis =>
    rw [inductionHypothesis all, List.flatten_concat]
  | cut => cases all

/-! ### One read after another -/

namespace Serving

/-- The coroutine goes on in the same way whatever it has passed on before, and passes on one
request at most. -/
def Passes (next : List HttpRequest → Serving) (progress : Progress)
    (passed : Option HttpRequest) : Prop :=
  ∀ requests, next requests = ⟨progress, requests ++ passed.toList⟩

theorem passes_stay (progress : Progress) :
    Passes (fun requests => ⟨progress, requests⟩) progress none :=
  fun requests => by rw [Option.toList_none, List.append_nil]

theorem passes_serve (progress : Progress) (request : HttpRequest) :
    Passes (fun requests => serve ⟨progress, requests⟩ request)
      (if asksToClose request then .returned else .waiting) (some request) :=
  fun _ => rfl

theorem passes_receive (progress : Progress) (request : HttpRequest) (contentLen : Int) :
    ∃ next passed,
      Passes (fun requests => receive ⟨progress, requests⟩ request contentLen) next passed := by
  by_cases full : request.body.length = sizeOf contentLen
  · exact ⟨_, some request, fun requests => if_pos full⟩
  · refine ⟨.receiving request contentLen, none, fun requests => (if_neg full).trans ?_⟩
    exact passes_stay _ requests

theorem passes_step (progress : Progress) (chunk : Bytes) :
    ∃ next passed, Passes (fun requests => step ⟨progress, requests⟩ chunk) next passed := by
  cases progress with
  | waiting =>
    by_cases some : chunk = []
    · subst some
      exact ⟨_, _, passes_stay .waiting⟩
    by_cases room : chunk.length < maxRequestSize
    · cases parsed : HttpRequest.new.parse (cString chunk) with
      | error fault =>
        simp only [step_malformed _ some room parsed]
        exact ⟨_, _, passes_stay _⟩
      | ok request =>
        cases length : request.headers (ascii "Content-Length") with
        | none =>
          simp only [step_bodyless _ some room parsed length]
          exact ⟨_, _, passes_serve .waiting request⟩
        | some value =>
          cases number : stoi value with
          | error fault =>
            simp only [step_undeclared _ some room parsed length number]
            exact ⟨_, _, passes_stay _⟩
          | ok contentLen =>
            simp only [step_declared _ some room parsed length number]
            exact passes_receive .waiting request contentLen
    · simp only [step_full _ some room]
      exact ⟨_, _, passes_stay _⟩
  | receiving request contentLen =>
    simp only [step_receiving]
    split
    · exact passes_receive .waiting _ contentLen
    · exact ⟨_, _, passes_stay _⟩
  | returned => exact ⟨_, _, passes_stay _⟩
  | failed fault => exact ⟨_, _, passes_stay _⟩

/-- A read passes on no request, or one. -/
theorem requests_step (serving : Serving) (chunk : Bytes) :
    ∃ passed : Option HttpRequest,
      (serving.step chunk).requests = serving.requests ++ passed.toList := by
  obtain ⟨next, passed, passes⟩ := passes_step serving.progress chunk
  exact ⟨passed, congrArg Serving.requests (passes serving.requests)⟩

end Serving

/-! ### What a session has sent -/

namespace Session

variable {State : Type} {answer : HttpRequest → State → Bytes × State} {session next : Session}
  {state : State} {replies : List Bytes}

/-- The responses have been sent, but for what is left of the one that is being sent. -/
def Sends (session : Session) (replies : List Bytes) : Prop :=
  match session.phase with
  | .reading conn => Sent replies session.unfinished conn.socket.accepted
  | .sending buffer writer => ∃ earlier before, replies = earlier ++ [buffer.val] ∧
      Sent earlier session.unfinished before ∧ AsyncWrite.Faithful buffer before writer

/-- What a step does: the coroutine goes on with what it has read, and a request is answered, or
none is. -/
theorem step_cases {label : SessionStep} {final : State}
    (taken : session.step answer state label = some (next, final)) :
    next.serving = label.reads.foldl Serving.step session.serving ∧
      ((next.serving.requests = session.serving.requests ∧ final = state ∧
          ∀ replies, session.Sends replies → next.Sends replies) ∨
        ∃ request, next.serving.requests = session.serving.requests ++ [request] ∧
          final = (answer request state).2 ∧
          ∀ replies, session.Sends replies →
            next.Sends (replies ++ [(answer request state).1])) := by
  obtain ⟨serving, phase, unfinished⟩ := session
  cases label with
  | receive chunk =>
    cases phase with
    | sending => cases taken
    | reading conn =>
      obtain ⟨-, taken⟩ := Option.ite_none_left_eq_some.mp taken
      obtain ⟨passed, requests⟩ := Serving.requests_step serving chunk
      cases passed with
      | none =>
        simp only [requests, Option.toList_none, List.append_nil,
          List.getElem?_eq_none (Nat.le_refl _)] at taken
        cases taken
        exact ⟨rfl, .inl ⟨requests.trans (List.append_nil _), rfl, fun _ sends => sends⟩⟩
      | some request =>
        simp only [requests, Option.toList_some, List.getElem?_concat_length] at taken
        split at taken
        case isFalse => cases taken
        case isTrue small =>
          cases taken
          refine ⟨rfl, .inr ⟨request, requests, rfl, fun replies sends => ?_⟩⟩
          exact ⟨replies, _, rfl, sends, AsyncWrite.initial_faithful _ conn⟩
  | write label =>
    cases phase with
    | reading => cases taken
    | sending buffer writer =>
      obtain ⟨moved, wrote, same⟩ := Option.map_eq_some_iff.mp taken
      cases same
      refine ⟨rfl, .inl ⟨rfl, rfl, ?_⟩⟩
      rintro replies ⟨earlier, before, rfl, sent, faithful⟩
      exact ⟨earlier, before, rfl, sent, faithful.step wrote⟩
  | finish =>
    cases phase with
    | reading => cases taken
    | sending buffer writer =>
      obtain ⟨phase, total, already, conn⟩ := writer
      cases phase with
      | looping => cases taken
      | suspended => cases taken
      | returned res stoppedBy =>
        cases taken
        refine ⟨rfl, .inl ⟨rfl, rfl, ?_⟩⟩
        rintro replies ⟨earlier, before, rfl, sent, faithful⟩
        obtain ⟨rfl, -⟩ := faithful.returned res stoppedBy rfl
        have finished := sent.finish buffer.val ((Nat.le_add_right _ _).trans faithful.sizes.le)
        rw [← faithful.accepted] at finished
        exact finished
  | close =>
    cases phase with
    | reading conn =>
      cases taken
      exact ⟨rfl, .inl ⟨rfl, rfl, fun _ sends => sends⟩⟩
    | sending buffer writer =>
      cases taken
      refine ⟨rfl, .inl ⟨rfl, rfl, ?_⟩⟩
      rintro replies ⟨earlier, before, rfl, sent, faithful⟩
      exact ⟨earlier, before, rfl, sent, faithful.sizes, faithful.accepted, faithful.returned⟩

/-- What is on the wire are fronts of the responses. -/
theorem Sends.fronts (sends : session.Sends replies) :
    ∃ fronts, List.Forall₂ (· <+: ·) fronts replies ∧ session.wire = fronts.flatten := by
  obtain ⟨serving, phase, unfinished⟩ := session
  cases phase with
  | reading conn => exact Sent.fronts sends
  | sending buffer writer =>
    obtain ⟨earlier, before, rfl, sent, faithful⟩ := sends
    obtain ⟨fronts, fit, rfl⟩ := sent.fronts
    let front := buffer.val.take writer.alreadyWriteSize
    refine ⟨fronts ++ [front], List.rel_append fit (.cons (List.take_prefix _ _) .nil), ?_⟩
    rw [List.flatten_concat]
    exact faithful.accepted

/-- Between two responses, what is on the wire is all of them, unless one has been cut short. -/
theorem Sends.uncut (sends : session.Sends replies) {conn : WriteConnection}
    (reading : session.phase = .reading conn) (all : session.unfinished = 0) :
    session.wire = replies.flatten := by
  obtain ⟨serving, phase, unfinished⟩ := session
  cases reading
  exact Sent.uncut sends all

end Session

/-! ### The server with all of its connections -/

namespace Sessions

variable {State Client : Type} [DecidableEq Client] {answer : HttpRequest → State → Bytes × State}
  {server next : Sessions State Client}

/-- What has been passed on has been answered in one order, and each connection has been sent its
responses. -/
def Serves (answer : HttpRequest → State → Bytes × State) (state : State)
    (server : Sessions State Client) : Prop :=
  ∃ replies, Service.Answered (fun request state => some (answer request state)) state
      (fun client => (server.sessions client).serving.requests) replies server.state ∧
    ∀ client, (server.sessions client).Sends (replies client)

theorem accepted_serves (state : State) (conns : Client → WriteConnection)
    (fresh : ∀ client, (conns client).socket.accepted = []) :
    (accepted state conns).Serves answer state := by
  refine ⟨fun _ => [], .none, fun client => ?_⟩
  have unsent : Sent [] 0 [] := .nothing
  rw [← fresh client] at unsent
  exact unsent

/-- The requests of all connections, where one connection goes on. -/
theorem requests_update {session : Session} {client : Client} {requests : List HttpRequest}
    (moved : session.serving.requests = requests) :
    (fun other => (Function.update server.sessions client session other).serving.requests) =
      Function.update (fun other => (server.sessions other).serving.requests) client requests := by
  funext other
  by_cases same : other = client
  · subst same
    simp only [Function.update_self, moved]
  · simp only [Function.update_of_ne same]

theorem sends_update {session : Session} (client : Client) {given : List Bytes}
    {replies : Client → List Bytes} (sends : ∀ other, (server.sessions other).Sends (replies other))
    (moved : session.Sends given) (other : Client) :
    (Function.update server.sessions client session other).Sends
      (Function.update replies client given other) := by
  by_cases same : other = client
  · subst same
    simpa only [Function.update_self] using moved
  · simpa only [Function.update_of_ne same] using sends other

theorem Serves.step {state : State} (serves : server.Serves answer state)
    {label : Client × SessionStep} (taken : server.step answer label = some next) :
    next.Serves answer state := by
  obtain ⟨client, label⟩ := label
  obtain ⟨⟨session, final⟩, moved, rfl⟩ := Option.map_eq_some_iff.mp taken
  obtain ⟨replies, answered, sends⟩ := serves
  obtain ⟨-, ⟨same, rfl, keeps⟩ | ⟨request, more, rfl, gives⟩⟩ := Session.step_cases moved
  · refine ⟨replies, ?_, fun other => ?_⟩
    · rw [requests_update same, Function.update_eq_self]
      exact answered
    · have kept := sends_update client sends (keeps _ (sends client)) other
      rwa [Function.update_eq_self] at kept
  · refine ⟨_, ?_, sends_update client sends (gives _ (sends client))⟩
    rw [requests_update more]
    exact answered.more client rfl

/-- Each coroutine does what it does with the reads of its own connection. -/
theorem serving_of_run {final : Sessions State Client} {labels : List (Client × SessionStep)}
    (ran : run (step answer) server labels = some final) (client : Client) :
    (final.sessions client).serving =
      (readOn client labels).foldl Serving.step (server.sessions client).serving := by
  induction labels generalizing server with
  | nil =>
    cases ran
    rfl
  | cons label labels inductionHypothesis =>
    obtain ⟨next, taken, later⟩ := (run_cons _).mp ran
    obtain ⟨other, label⟩ := label
    obtain ⟨⟨session, state⟩, moved, rfl⟩ := Option.map_eq_some_iff.mp taken
    have first : readOn client ((other, label) :: labels) =
        (if other = client then label.reads else []) ++ readOn client labels := List.flatMap_cons
    rw [inductionHypothesis later, first, List.foldl_append]
    by_cases same : other = client
    · subst same
      simp only [Function.update_self, if_pos, (Session.step_cases moved).1]
    · simp only [if_neg same, Function.update_of_ne (Ne.symm same), List.foldl_nil]

end Sessions

/-- Whatever is read on the connections, whatever their sockets take, whenever they are closed,
and in whatever order all of this happens, the server answers the requests that the reads of each
connection make up, one after the other. A connection has been sent the fronts of its responses
in their order, and all of them unless one has been logged as not finished. -/
theorem sessions_serve {State Client : Type} [DecidableEq Client]
    (answer : HttpRequest → State → Bytes × State) (state : State)
    (conns : Client → WriteConnection) (fresh : ∀ client, (conns client).socket.accepted = [])
    (labels : List (Client × SessionStep)) (final : Sessions State Client)
    (ran : run (Sessions.step answer) (.accepted state conns) labels = some final) :
    ∃ replies, Service.Answered (fun request state => some (answer request state)) state
        (fun client => (onRequest (readOn client labels)).requests) replies final.state ∧
      ∀ client,
        (∃ fronts, List.Forall₂ (· <+: ·) fronts (replies client) ∧
          (final.sessions client).wire = fronts.flatten) ∧
        (∀ conn, (final.sessions client).phase = .reading conn →
          (final.sessions client).unfinished = 0 →
            (final.sessions client).wire = (replies client).flatten) := by
  have serves : final.Serves answer state :=
    invariant_run _ (fun _ _ _ serves => serves.step)
      (Sessions.accepted_serves state conns fresh) ran
  obtain ⟨replies, answered, sends⟩ := serves
  have reads : ∀ client, (final.sessions client).serving = onRequest (readOn client labels) :=
    Sessions.serving_of_run ran
  simp only [reads] at answered
  exact ⟨replies, answered, fun client =>
    ⟨(sends client).fronts, fun _ reading => (sends client).uncut reading⟩⟩

theorem perm_id (headers : List (Bytes × Bytes)) : (id headers).Perm headers := .refl _

/-- The headers in the order in which they are stored. -/
def Iteration.stored : Iteration := ⟨id, perm_id⟩

/-- Sets a short page, and counts its runs. -/
def page : HandleFunc Nat := fun context runs =>
  ((context.res.setStatusCode 200).setBody .stored (ascii "hi"), runs + 1)

/-- Two requests on two connections; the first response is cut short by a closing. -/
theorem sessions_serve_two :
    let answer := serverHTTP .stored (routed [.GET (ascii "/") page])
    let conns : Bool → WriteConnection := fun client =>
      ⟨false, [], if client then [.accept 3] else []⟩
    let labels : List (Bool × SessionStep) :=
      [(true, .receive (ascii "GET / HTTP/1.1\r\n\r\n")), (false, .receive []),
        (true, .write .attempt), (false, .receive (ascii "GET /x HTTP/1.0\r\n\r\n")),
        (true, .close), (true, .write .attempt), (false, .write .attempt), (true, .finish)]
    ∃ final, run (Sessions.step answer) (.accepted 0 conns) labels = some final ∧
      ∃ replies, Service.Answered (fun request state => some (answer request state)) 0
        (fun client => (onRequest (readOn client labels)).requests) replies final.state ∧
        final.state = 1 ∧ (final.sessions true).wire = ascii "HTT" := by
  intro answer conns labels
  have seen : (run (Sessions.step answer) (.accepted 0 conns) labels).map
      (fun final => (final.state, (final.sessions true).wire)) = some (1, ascii "HTT") := by
    decide +kernel
  obtain ⟨final, ran, seen⟩ := Option.map_eq_some_iff.mp seen
  obtain ⟨runs, sent⟩ := Prod.mk.inj seen
  obtain ⟨replies, answered, -⟩ := sessions_serve answer 0 conns (fun _ => rfl) labels final ran
  exact ⟨final, ran, replies, answered, runs, sent⟩

end Luce.Http
