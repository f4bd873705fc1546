/-
This file is about a service that answers one request at a time.

Several clients have requests to make, each one after the other. A run is the order in which
the requests are answered; each answer works on the state that the ones before have left. Two
services that answer alike what corresponds are the same to their clients.
-/

import Luce.Library.Transition
import Mathlib.Data.List.Forall2
import Mathlib.Logic.Function.Basic

namespace Library.Serving

open Library.Transition

/-- The state of a service, with the requests that each client still has to make and the
replies to those it has made. -/
structure Service (State Request Reply Client : Type*) where
  state : State
  requests : Client → List Request
  replies : Client → List Reply

namespace Service

variable {State Request Reply Client : Type*}

section

variable [DecidableEq Client]

/-- The next request of a client is answered. -/
def step (answer : Request → State → Option (Reply × State))
    (service : Service State Request Reply Client) (client : Client) :
    Option (Service State Request Reply Client) :=
  match service.requests client with
  | [] => none
  | request :: requests =>
    (answer request service.state).map fun outcome =>
      { state := outcome.2
        requests := Function.update service.requests client requests
        replies := Function.update service.replies client (service.replies client ++ [outcome.1]) }

variable {answer : Request → State → Option (Reply × State)}

theorem step_of_answer {service : Service State Request Reply Client} {client : Client}
    {request : Request} {requests : List Request} {reply : Reply} {state : State}
    (next : service.requests client = request :: requests)
    (answered : answer request service.state = some (reply, state)) :
    service.step answer client = some
      { state
        requests := Function.update service.requests client requests
        replies :=
          Function.update service.replies client (service.replies client ++ [reply]) } := by
  rw [step, next]
  exact congrArg (Option.map _) answered

/-- What an answer has done. -/
theorem step_cases {service next : Service State Request Reply Client} {client : Client}
    (taken : service.step answer client = some next) :
    ∃ request requests reply state, service.requests client = request :: requests ∧
      answer request service.state = some (reply, state) ∧
      next = { state
               requests := Function.update service.requests client requests
               replies := Function.update service.replies client
                 (service.replies client ++ [reply]) } := by
  unfold step at taken
  split at taken
  case h_1 => cases taken
  case h_2 request requests next =>
    obtain ⟨⟨reply, state⟩, answered, rfl⟩ := Option.map_eq_some_iff.mp taken
    exact ⟨request, requests, reply, state, next, answered, rfl⟩

end

/-- A run gives each client as many replies as it names it, and takes as many requests. -/
theorem run_count [DecidableEq Client] {answer : Request → State → Option (Reply × State)}
    {service final : Service State Request Reply Client} {order : List Client}
    (ran : run (step answer) service order = some final) (client : Client) :
    (final.replies client).length = (service.replies client).length + order.count client ∧
      (final.requests client).length + order.count client = (service.requests client).length := by
  induction order generalizing service with
  | nil =>
    cases ran
    exact ⟨rfl, rfl⟩
  | cons first order inductionHypothesis =>
    obtain ⟨next, taken, later⟩ := (run_cons _).mp ran
    obtain ⟨request, requests, reply, state, front, -, rfl⟩ := step_cases taken
    obtain ⟨replies, left⟩ := inductionHypothesis later
    rw [List.count_cons]
    by_cases same : first = client
    · subst same
      simp only [Function.update_self, List.length_append, List.length_singleton] at replies left
      rw [front, List.length_cons, beq_self_eq_true, if_pos rfl]
      omega
    · have other : ¬ client = first := fun equal => same equal.symm
      simp only [Function.update_of_ne other] at replies left
      rw [beq_eq_false_iff_ne.mpr same, if_neg Bool.false_ne_true]
      omega

/-! ### Requests that come up later -/

section

variable [DecidableEq Client]

/-- Requests that are added behind those of the clients are still there after a run. -/
theorem run_behind {answer : Request → State → Option (Reply × State)}
    {service final : Service State Request Reply Client} {order : List Client}
    (ran : run (step answer) service order = some final) (behind : Client → List Request) :
    run (step answer)
        { service with requests := fun client => service.requests client ++ behind client } order =
      some { final with requests := fun client => final.requests client ++ behind client } := by
  induction order generalizing service with
  | nil =>
    cases ran
    rfl
  | cons client order inductionHypothesis =>
    obtain ⟨next, taken, later⟩ := (run_cons _).mp ran
    obtain ⟨request, requests, reply, state, front, answered, rfl⟩ := step_cases taken
    have longer : service.requests client ++ behind client =
        request :: (requests ++ behind client) := by rw [front, List.cons_append]
    refine (run_cons _).mpr ⟨_, step_of_answer longer answered, ?_⟩
    rw [← inductionHypothesis later]
    congr 2
    funext other
    by_cases same : other = client
    · subst same
      simp only [Function.update_self]
    · simp only [Function.update_of_ne same]

/-- All requests of the clients have been answered, each client's in their order. -/
def Answered (answer : Request → State → Option (Reply × State)) (state : State)
    (requests : Client → List Request) (replies : Client → List Reply) (final : State) : Prop :=
  ∃ order, run (step answer) ⟨state, requests, fun _ => []⟩ order =
    some ⟨final, fun _ => [], replies⟩

variable {answer : Request → State → Option (Reply × State)} {state final next : State}
  {requests : Client → List Request} {replies : Client → List Reply}

theorem Answered.none : Answered answer state (fun _ : Client => []) (fun _ => []) state :=
  ⟨[], rfl⟩

/-- Only how the requests of the clients are answered matters. -/
theorem run_congr {other : Request → State → Option (Reply × State)}
    {service : Service State Request Reply Client}
    (alike : ∀ client, ∀ request ∈ service.requests client, answer request = other request)
    (order : List Client) : run (step answer) service order = run (step other) service order := by
  induction order generalizing service with
  | nil => rfl
  | cons client order inductionHypothesis =>
    have same : service.step answer client = service.step other client := by
      unfold step
      split
      case h_1 => rfl
      case h_2 request requests front =>
        rw [alike client request (by rw [front]; exact List.mem_cons_self)]
    rw [run, run, ← same]
    cases taken : service.step answer client with
    | none => rfl
    | some next =>
      refine inductionHypothesis fun one request member => alike one request ?_
      obtain ⟨first, requests, reply, state, front, -, rfl⟩ := step_cases taken
      by_cases same : one = client
      · subst same
        simp only [Function.update_self] at member
        exact front ▸ List.mem_cons_of_mem first member
      · simpa only [Function.update_of_ne same] using member

theorem Answered.congr {other : Request → State → Option (Reply × State)}
    (answered : Answered answer state requests replies final)
    (alike : ∀ client, ∀ request ∈ requests client, answer request = other request) :
    Answered other state requests replies final := by
  obtain ⟨order, ran⟩ := answered
  exact ⟨order, (run_congr alike order).symm.trans ran⟩

theorem update_behind (requests : Client → List Request) (client : Client) (request : Request) :
    (fun other => requests other ++ Function.update (fun _ => []) client [request] other) =
      Function.update requests client (requests client ++ [request]) := by
  funext other
  by_cases same : other = client
  · subst same
    simp only [Function.update_self]
  · simp only [Function.update_of_ne same, List.append_nil]

/-- A client makes one more request. -/
theorem Answered.more (answered : Answered answer state requests replies final) (client : Client)
    {request : Request} {reply : Reply} (one : answer request final = some (reply, next)) :
    Answered answer state
      (Function.update requests client (requests client ++ [request]))
      (Function.update replies client (replies client ++ [reply])) next := by
  obtain ⟨order, ran⟩ := answered
  have behind := run_behind ran (Function.update (fun _ => []) client [request])
  simp only [update_behind, List.nil_append] at behind
  refine ⟨order ++ [client], (run_append _).mpr ⟨_, behind, ?_⟩⟩
  have front : Function.update (fun _ => []) client [request] client = request :: [] :=
    Function.update_self ..
  rw [run_cons]
  refine ⟨_, step_of_answer front one, ?_⟩
  rw [Function.update_idem, Function.update_eq_self]
  rfl

end

/-! ### Services that answer alike -/

variable {Meaning Value : Type*}

/-- The requests and the replies stand for those of another service. -/
structure Means (encode : Meaning → Request) (decodes : Reply → Value → Prop)
    (service : Service State Request Reply Client)
    (other : Service State Meaning Value Client) : Prop where
  state : service.state = other.state
  requests : ∀ client, service.requests client = (other.requests client).map encode
  replies : ∀ client, List.Forall₂ decodes (service.replies client) (other.replies client)

variable [DecidableEq Client]

/-- What is answered alike to one client leaves what the services mean. -/
theorem Means.answer {encode : Meaning → Request} {decodes : Reply → Value → Prop}
    {service : Service State Request Reply Client} {other : Service State Meaning Value Client}
    (means : Means encode decodes service other) (client : Client) {requests : List Meaning}
    {reply : Reply} {value : Value} (decoded : decodes reply value) (state : State) :
    Means encode decodes
      { state
        requests := Function.update service.requests client (requests.map encode)
        replies := Function.update service.replies client (service.replies client ++ [reply]) }
      { state
        requests := Function.update other.requests client requests
        replies := Function.update other.replies client (other.replies client ++ [value]) } where
  state := rfl
  requests one := by
    by_cases same : one = client
    · subst same
      simp only [Function.update_self]
    · simp only [Function.update_of_ne same]
      exact means.requests one
  replies one := by
    by_cases same : one = client
    · subst same
      simp only [Function.update_self]
      exact List.rel_append (means.replies one) (.cons decoded .nil)
    · simp only [Function.update_of_ne same]
      exact means.replies one

/-- Services that answer alike what corresponds are the same to their clients, in whatever
order the requests are answered. -/
theorem run_means {answer : Request → State → Option (Reply × State)}
    {encode : Meaning → Request} {decodes : Reply → Value → Prop}
    {perform : Meaning → State → Value × State}
    (alike : ∀ meaning state, ∃ reply,
      answer (encode meaning) state = some (reply, (perform meaning state).2) ∧
        decodes reply (perform meaning state).1)
    {service : Service State Request Reply Client} {other : Service State Meaning Value Client}
    (means : Means encode decodes service other) (order : List Client) :
    Option.Rel (Means encode decodes) (run (step answer) service order)
      (run (step fun meaning state => some (perform meaning state)) other order) := by
  refine run_agrees (fun service other client means => ?_) means order
  have requests := means.requests client
  cases next : other.requests client with
  | nil =>
    rw [next] at requests
    rw [step, step, next, requests]
    exact .none
  | cons meaning rest =>
    rw [next] at requests
    obtain ⟨reply, answered, decoded⟩ := alike meaning other.state
    rw [← means.state] at answered
    rw [step_of_answer requests answered, step_of_answer next rfl, means.state]
    exact .some (means.answer client decoded _)

end Service

end Library.Serving
