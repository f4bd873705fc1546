/-
This file proves what clients get from the HTTP server whose requests are delivered without
harm: the responses of the handlers that they have asked for.

A request in a harmless division fills its body with the last of its reads, so the coroutine is
in front of the next request then, and how the request was divided leaves no trace. The router
finds the handler that was last registered for the very method and URL, as long as no method has
a dash.
-/

import Luce.Http.Segmentation
import Luce.Http.Sessions

namespace Luce.Http

open Library.Transition Library.Serving StringUtil Library.Search

/-! ### Requests that are filled with their last read -/

namespace Serving

/-- The reads fill the body, and nothing is lost on the way. -/
theorem foldl_receive {contentLen : Int} {request : HttpRequest} {others : List Bytes}
    (filled : request.body.length + others.flatten.length = sizeOf contentLen)
    (nonempty : ∀ chunk ∈ others, chunk ≠ [])
    (arrives : ∀ chunk ∈ others, chunk.length < maxRequestSize ∧ 0 ∉ chunk) :
    others.foldl step (initial.receive request contentLen) =
      initial.serve { request with body := request.body ++ others.flatten } := by
  induction others generalizing request with
  | nil =>
    rw [List.flatten_nil, List.length_nil, Nat.add_zero] at filled
    rw [List.flatten_nil, List.append_nil, List.foldl_nil, receive, if_pos filled]
  | cons chunk others inductionHypothesis =>
    have longer := List.length_pos_of_ne_nil (nonempty chunk List.mem_cons_self)
    obtain ⟨room, absent⟩ := arrives chunk List.mem_cons_self
    rw [List.flatten_cons, List.length_append] at filled
    have incomplete : request.body.length ≠ sizeOf contentLen := by omega
    rw [List.foldl_cons, receive, if_neg incomplete, initial, step_receiving, if_pos room,
      cString_eq_iff.mpr absent]
    have next := @inductionHypothesis { request with body := request.body ++ chunk }
      (by simp only [List.length_append]; omega)
      (fun chunk member => nonempty chunk (List.mem_cons_of_mem _ member))
      (fun chunk member => arrives chunk (List.mem_cons_of_mem _ member))
    rw [List.append_assoc, ← List.flatten_cons] at next
    exact next

/-- What has been passed on before stays in front. -/
theorem foldl_earlier (progress : Progress) (earlier : List HttpRequest) (reads : List Bytes) :
    reads.foldl step ⟨progress, earlier⟩ =
      ⟨(reads.foldl step ⟨progress, []⟩).progress,
        earlier ++ (reads.foldl step ⟨progress, []⟩).requests⟩ := by
  induction reads generalizing progress earlier with
  | nil => rw [List.foldl_nil, List.foldl_nil, List.append_nil]
  | cons chunk reads inductionHypothesis =>
    obtain ⟨next, passed, passes⟩ := passes_step progress chunk
    have first : step ⟨progress, earlier⟩ chunk = ⟨next, earlier ++ passed.toList⟩ := passes earlier
    have alone : step ⟨progress, []⟩ chunk = ⟨next, passed.toList⟩ := passes []
    rw [List.foldl_cons, List.foldl_cons, first, alone, inductionHypothesis,
      inductionHypothesis next passed.toList, List.append_assoc]

/-- Reading nothing may be left out. -/
theorem foldl_filter {serving : Serving} (unfilled : serving.Unfilled) (reads : List Bytes) :
    reads.foldl step serving = (reads.filter (· ≠ [])).foldl step serving := by
  induction reads generalizing serving with
  | nil => rfl
  | cons chunk reads inductionHypothesis =>
    rw [List.foldl_cons, inductionHypothesis (unfilled.step chunk)]
    by_cases idle : chunk = []
    · rw [List.filter_cons_of_neg (by simp [idle]), idle, step_nothing unfilled]
    · rw [List.filter_cons_of_pos (by simp [idle]), List.foldl_cons]

end Serving

/-! ### Deliveries -/

/-- The request that the header block and the body make up. -/
def Request.delivered (request : Request) : HttpRequest :=
  match HttpRequest.parseHead request.head with
  | .error _ => .new
  | .ok fields =>
    { fields with body := request.body, bodyParams := HttpRequest.params request.body }

/-- The reads of a harmless division have the request passed on, and nothing else. -/
theorem Division.Harmless.foldl {request : Request} {division : Division request}
    (harmless : division.Harmless) :
    division.reads.foldl Serving.step .initial = Serving.initial.serve request.delivered := by
  obtain ⟨fields, value, parsed, present, length⟩ := request.fields
  obtain ⟨room, fits⟩ := List.forall_mem_cons.mp harmless.reads
  have absent : 0 ∉ division.part ∧ ∀ chunk ∈ division.others, 0 ∉ chunk := by
    have body := harmless.body
    rw [← division.whole] at body
    simpa [not_or] using body
  have found := division.found_eq (division.length_found_eq_iff.mpr ⟨absent.1, harmless.part⟩)
  have whole : division.part.length + division.others.flatten.length =
      sizeOf request.body.length := by
    rw [sizeOf_natCast harmless.length, ← List.length_append, division.whole]
  rw [Division.reads, List.foldl_cons, division.step_first parsed present length, if_pos room,
    if_pos harmless.length, found, Request.delivered, parsed]
  rw [Serving.foldl_receive whole division.nonempty fun chunk member =>
    ⟨fits chunk member, absent.2 chunk member⟩]
  dsimp only
  rw [division.whole, harmless.params]

/-- A header block that declares no length is a request by itself. -/
theorem foldl_bodyless {head : Bytes} {fields : HttpRequest} (text : 0 ∉ head)
    (ends : find blankLine (head ++ blankLine) = some head.length)
    (room : (head ++ blankLine).length < maxRequestSize)
    (parsed : HttpRequest.parseHead head = .ok fields)
    (absent : fields.headers (ascii "Content-Length") = none) :
    [head ++ blankLine].foldl Serving.step .initial =
      Serving.initial.serve { fields with body := [], bodyParams := HttpRequest.params [] } := by
  have some : head ++ blankLine ≠ [] := by simp [blankLine_ne_nil]
  obtain ⟨more, parts⟩ := split_append blankLine_ne_nil ends []
  have whole : cString (head ++ blankLine) = head ++ blankLine ++ [] := by
    rw [cString_append text, List.append_nil]
    rfl
  have parse : HttpRequest.new.parse (cString (head ++ blankLine)) =
      .ok { fields with body := [], bodyParams := HttpRequest.params [] } := by
    rw [whole, HttpRequest.parse_of_split parts, parsed, HttpRequest.params,
      ← HttpRequest.parseHead_bodyParams parsed]
    rfl
  exact Serving.step_bodyless [] some room parse absent

/-- These reads deliver this request without harm. -/
inductive Delivers : List Bytes → HttpRequest → Prop
  | divided {request : Request} {division : Division request} (harmless : division.Harmless) :
      Delivers division.reads request.delivered
  | bodyless {head : Bytes} {fields : HttpRequest} (text : 0 ∉ head)
      (ends : find blankLine (head ++ blankLine) = some head.length)
      (room : (head ++ blankLine).length < maxRequestSize)
      (parsed : HttpRequest.parseHead head = .ok fields)
      (absent : fields.headers (ascii "Content-Length") = none) :
      Delivers [head ++ blankLine]
        { fields with body := [], bodyParams := HttpRequest.params [] }

theorem Delivers.foldl {reads : List Bytes} {request : HttpRequest}
    (delivers : Delivers reads request) :
    reads.foldl Serving.step .initial = Serving.initial.serve request := by
  cases delivers with
  | divided harmless => exact harmless.foldl
  | bodyless text ends room parsed absent => exact foldl_bodyless text ends room parsed absent

/-- A request as it is delivered, after which the connection is kept. -/
structure Delivery where
  reads : List Bytes
  request : HttpRequest
  delivers : Delivers reads request
  keeps : Serving.asksToClose request = false

/-- Requests that are delivered one after another are passed on one after another. -/
theorem onRequest_deliveries (deliveries : List Delivery) :
    onRequest (deliveries.flatMap Delivery.reads) =
      ⟨.waiting, deliveries.map Delivery.request⟩ := by
  induction deliveries with
  | nil => rfl
  | cons delivery deliveries inductionHypothesis =>
    rw [onRequest] at inductionHypothesis ⊢
    rw [List.flatMap_cons, List.foldl_append, delivery.delivers.foldl, Serving.serve,
      delivery.keeps, Serving.foldl_earlier]
    simp only [Serving.initial] at inductionHypothesis
    rw [if_neg Bool.false_ne_true, inductionHypothesis]
    rfl

/-! ### What the clients get -/

variable {State : Type} (iteration : Iteration)

/-- The handler that was last registered for the very method and URL of the request fills the
response; where there is none, the response says so. -/
def respond (registrations : List (Registration (HandleFunc State))) (request : HttpRequest)
    (state : State) : Bytes × State :=
  let context := HttpContext.new request (HttpResponse.new.setHTTPVersion request.httpVersion)
  match asked registrations request.method request.url with
  | some handler => ((handler context state).1.buffer, (handler context state).2)
  | none =>
    ((context.html iteration 404 (Router.notFound request.method request.url)).res.buffer, state)

theorem serverHTTP_eq_respond {registrations : List (Registration (HandleFunc State))}
    (registered : ∀ registration ∈ registrations, byte '-' ∉ registration.method)
    {request : HttpRequest} (requested : byte '-' ∉ request.method) (state : State) :
    serverHTTP iteration (routed registrations) request state =
      respond iteration registrations request state := by
  have exact := exact_of_dashless iteration registrations
    (.new request (HttpResponse.new.setHTTPVersion request.httpVersion)) registered requested
  simp only [serverHTTP, respond]
  rw [exact]
  simp only [HttpContext.new]
  cases asked registrations request.method request.url <;> rfl

/-- Whoever's requests are delivered without harm is sent the responses of the handlers that
they ask for, in order, however the requests are divided into reads, whatever the others do, and
in whatever order all of this happens. -/
theorem sessions_respond {Client : Type} [DecidableEq Client]
    (registrations : List (Registration (HandleFunc State)))
    (registered : ∀ registration ∈ registrations, byte '-' ∉ registration.method)
    (state : State) (conns : Client → WriteConnection)
    (fresh : ∀ client, (conns client).socket.accepted = [])
    (deliveries : Client → List Delivery)
    (requested : ∀ client, ∀ delivery ∈ deliveries client,
      byte '-' ∉ delivery.request.method)
    (labels : List (Client × SessionStep)) (final : Sessions State Client)
    (ran : run (Sessions.step (serverHTTP iteration (routed registrations)))
      (.accepted state conns) labels = some final)
    (delivered : ∀ client, (readOn client labels).filter (· ≠ []) =
      (deliveries client).flatMap Delivery.reads) :
    ∃ replies, Service.Answered
        (fun request state => some (respond iteration registrations request state)) state
        (fun client => (deliveries client).map Delivery.request) replies final.state ∧
      ∀ client conn, (final.sessions client).phase = .reading conn →
        (final.sessions client).unfinished = 0 →
          (final.sessions client).wire = (replies client).flatten := by
  have requests : ∀ client, (onRequest (readOn client labels)).requests =
      (deliveries client).map Delivery.request := by
    intro client
    have unfilled : Serving.initial.Unfilled := nofun
    have passed := onRequest_deliveries (deliveries client)
    rw [onRequest] at passed ⊢
    rw [Serving.foldl_filter unfilled, delivered client, passed]
  have serves : final.Serves _ state := invariant_run _ (fun _ _ _ serves => serves.step)
    (Sessions.accepted_serves state conns fresh) ran
  obtain ⟨replies, answered, sends⟩ := serves
  have reads : ∀ client, (final.sessions client).serving = onRequest (readOn client labels) :=
    Sessions.serving_of_run ran
  simp only [reads, requests] at answered
  refine ⟨replies, answered.congr fun client request member => ?_, fun client _ reading =>
    (sends client).uncut reading⟩
  obtain ⟨delivery, among, rfl⟩ := List.mem_map.mp member
  funext state
  rw [serverHTTP_eq_respond iteration registered (requested client delivery among)]

/-- Greets by the parameter of a form, and counts. -/
def greet : HandleFunc Nat := fun context runs =>
  ((context.res.setStatusCode 200).setBody .stored (context.queryBody (ascii "k")),
    runs + 1)

def form.delivery : Delivery where
  reads := form.whole.reads
  request := form.delivered
  delivers := .divided ⟨by decide, by decide, by decide, by decide, rfl⟩
  keeps := by decide

/-- Two connections send a form each; one of them is read twice without anything there. -/
theorem sessions_respond_forms :
    let registrations : List (Registration (HandleFunc Nat)) := [.POST (ascii "/login/") greet]
    let iteration : Iteration := .stored
    let conns : Bool → WriteConnection := fun client =>
      ⟨false, [], if client then [.accept 3] else []⟩
    let labels : List (Bool × SessionStep) := [(true, .receive []), (true, .receive []),
      (false, .receive (form.head ++ blankLine ++ form.body)), (false, .write .attempt),
      (true, .receive (form.head ++ blankLine ++ form.body)), (false, .write .attempt),
      (true, .write .attempt), (true, .write .attempt), (true, .write .attempt), (true, .finish),
      (false, .finish)]
    ∃ final replies, run (Sessions.step (serverHTTP iteration (routed registrations)))
        (.accepted 0 conns) labels = some final ∧
      Service.Answered
        (fun request state => some (respond iteration registrations request state)) 0
        (fun _ => [form.delivered]) replies final.state ∧
      final.state = 2 ∧
      (replies true).flatten = ascii "HTTP/1.1 200 OK\r\n\r\nv\r\n" := by
  intro registrations iteration conns labels
  have seen : (run (Sessions.step (serverHTTP iteration (routed registrations)))
      (.accepted 0 conns) labels).map (fun final => (final.state, (final.sessions true).phase,
        (final.sessions true).unfinished)) =
      some (2, .reading ⟨false, ascii "HTTP/1.1 200 OK\r\n\r\nv\r\n", []⟩, 0) := by
    decide +kernel
  obtain ⟨final, ran, seen⟩ := Option.map_eq_some_iff.mp seen
  obtain ⟨runs, seen⟩ := Prod.mk.inj seen
  obtain ⟨reading, whole⟩ := Prod.mk.inj seen
  obtain ⟨replies, answered, sent⟩ := sessions_respond iteration registrations (by decide) 0 conns
    (fun _ => rfl) (fun _ => [form.delivery])
    (fun _ => List.forall_mem_singleton.mpr (by decide)) labels final ran (by decide +kernel)
  refine ⟨final, replies, ran, answered, runs, ?_⟩
  rw [← sent true _ reading whole, Session.wire, reading]
  rfl

end Luce.Http
