/-
This file proves what all clients of a server see together. Each of them makes remote calls of
bound functions, one after the other, over a connection of its own. Whatever the interleaving on
the wire, the calls are local calls that somebody makes in some order: on one state, each once,
with the results that the clients get.
-/

import Luce.Rpc.Calls
import Luce.Rpc.Completion

namespace Luce

open Library.Transition Library.Binary Library.Serving BlockingRpcClient

variable {State : Type} {bindings : List (Bytes × Callable State)}

/-- A call of a bound function, with arguments that survive the codec, and results that do
whatever the state is. -/
structure RemoteCall (bindings : List (Bytes × Callable State)) where
  data : Bytes
  func : Callable State
  bound : (data, func) ∈ bindings
  args : Pack func.parameters
  argsFit : Ty.AllFit func.parameters (makeTuple func.parameters args)
  requestSmall : (call (cString data) func.parameters args).buffer.length < 2 ^ 31
  resultFits : ∀ state, func.result.Fits (func.call args state).1
  replySmall : ∀ state, (serialize (RpcResponse func.result)
    (rpcResponse .success [] (func.call args state).1) ⟨[], 0⟩).buffer.length < 2 ^ 31

/-- A response with its type. -/
abbrev Outcome : Type := (result : Ty) × (RpcResponse result).Val

namespace RemoteCall

/-- The packet that the client sends. -/
def request (remote : RemoteCall bindings) : Bytes :=
  (call (cString remote.data) remote.func.parameters remote.args).buffer

/-- The packet that answers it. -/
def reply (remote : RemoteCall bindings) (state : State) : Bytes :=
  (serialize (RpcResponse remote.func.result)
    (rpcResponse .success [] (remote.func.call remote.args state).1) ⟨[], 0⟩).buffer

/-- The local call. -/
def perform (remote : RemoteCall bindings) (state : State) : Outcome × State :=
  (⟨remote.func.result, rpcResponse .success [] (remote.func.call remote.args state).1⟩,
    (remote.func.call remote.args state).2)

end RemoteCall

/-- The loop of `OnRequest` as a service. -/
def RpcServer.answer (runtime : Runtime) (server : RpcServer State) (packet : Bytes)
    (state : State) : Option (Bytes × State) :=
  (server.onRequest runtime packet state).toOption

/-- `NetCall` makes this response of the reply. -/
def DecodesTo (runtime : Runtime) (reply : Bytes) (outcome : Outcome) : Prop :=
  ∃ finished, netCall runtime outcome.1 reply = .ok (outcome.2, finished)

namespace RemoteCall

/-- The server answers the request of a call with what the local call gives. -/
theorem answer_request (runtime : Runtime)
    (distinct : (bindings.map fun binding => cString binding.1).Nodup)
    (remote : RemoteCall bindings) (state : State) :
    (RpcServer.initial.bindAll runtime bindings).answer runtime remote.request state =
      some (remote.reply state, (remote.perform state).2) := by
  have handled : (RpcServer.initial.bindAll runtime bindings).handlers (cString remote.data) =
      some (callProxy runtime remote.func) := bindAll_bound runtime bindings _ distinct remote.bound
  have small := remote.requestSmall
  rw [call_buffer] at small
  have decodes := decodes_images runtime (cString remote.data) remote.func.parameters _
    remote.argsFit small
  rw [RpcServer.answer, request, call_buffer, onRequest_bound runtime handled decodes state]
  rfl

/-- The client decodes the reply as what the local call gives. -/
theorem decodes_reply (runtime : Runtime) (remote : RemoteCall bindings) (state : State) :
    DecodesTo runtime (remote.reply state) (remote.perform state).1 := by
  have small := remote.replySmall state
  rw [serialize_buffer] at small
  have decoded := netCall_response runtime remote.func.result
    (rpcResponse .success [] (remote.func.call remote.args state).1)
    ⟨trivial, trivial, remote.resultFits state, trivial⟩ small
  rw [reply, serialize_buffer]
  exact decoded

/-- A reply begins with a code. -/
theorem reply_ne_nil (remote : RemoteCall bindings) (state : State) : remote.reply state ≠ [] := by
  rw [reply, serialize_buffer]
  exact List.cons_ne_nil _ _

theorem answers_request (runtime : Runtime)
    (distinct : (bindings.map fun binding => cString binding.1).Nodup)
    (remote : RemoteCall bindings) :
    Link.Answers ((RpcServer.initial.bindAll runtime bindings).answer runtime) remote.request := by
  have below : (2 : Nat) ^ 31 < 2 ^ 32 := by decide
  exact ⟨remote.requestSmall.trans below, fun state => ⟨remote.reply state, _,
    remote.answer_request runtime distinct state, remote.reply_ne_nil state,
    (remote.replySmall state).trans below⟩⟩

end RemoteCall

/-- What a service has answered on the wire is what it has performed. -/
theorem run_performs {Client : Type} [DecidableEq Client] {runtime : Runtime}
    (distinct : (bindings.map fun binding => cString binding.1).Nodup) (state : State)
    (calls : Client → List (RemoteCall bindings)) {order : List Client}
    {service : Service State Bytes Bytes Client}
    (answered : run
      (Service.step ((RpcServer.initial.bindAll runtime bindings).answer runtime))
      ⟨state, fun client => (calls client).map RemoteCall.request, fun _ => []⟩ order =
        some service) :
    ∃ performed, run (Service.step fun remote state => some (RemoteCall.perform remote state))
        ⟨state, calls, fun _ => []⟩ order = some performed ∧
      Service.Means RemoteCall.request (DecodesTo runtime) service performed := by
  have initially : Service.Means RemoteCall.request (DecodesTo runtime)
      (⟨state, fun client => (calls client).map RemoteCall.request, fun _ => []⟩ :
        Service State Bytes Bytes Client) ⟨state, calls, fun _ => []⟩ :=
    ⟨rfl, fun _ => rfl, fun _ => .nil⟩
  have means := Service.run_means (fun remote state => ⟨remote.reply state,
    remote.answer_request runtime distinct state, remote.decodes_reply runtime state⟩)
    initially order
  rw [answered] at means
  generalize ran : run (Service.step fun remote state => some (RemoteCall.perform remote state))
    ⟨state, calls, fun _ => []⟩ order = outcome at means
  cases means with
  | some means => exact ⟨_, rfl, means⟩

/-- Whatever the clients and the coroutines of the server do in whatever order, the remote calls
are local calls in some order, each made once on the state that the ones before have left, and
each client gets the results of its own calls in order, all but at most the last one so far. When
nothing can go on any more, all calls have been made and all results have been got. -/
theorem remote_calls_are_local {Client : Type} [DecidableEq Client] (runtime : Runtime)
    (distinct : (bindings.map fun binding => cString binding.1).Nodup) (state : State)
    (errCode : Client → Int) (calls : Client → List (RemoteCall bindings))
    (headBuffers : Client → HeadBuffer)
    (ready : ∀ client, errCode client ≠ RpcErrCode.recvTimeout.toNat)
    (labels : List (Client × LinkStep)) (final : Network State Client)
    (whole : Along
      (Network.step ((RpcServer.initial.bindAll runtime bindings).answer runtime))
      Network.HeadersWhole
      (.connected state errCode (fun client => (calls client).map RemoteCall.request) headBuffers)
      labels)
    (ran : run (Network.step ((RpcServer.initial.bindAll runtime bindings).answer runtime))
      (.connected state errCode (fun client => (calls client).map RemoteCall.request) headBuffers)
      labels = some final) :
    ∃ order performed,
      run (Service.step fun remote state => some (RemoteCall.perform remote state))
        ⟨state, calls, fun _ => []⟩ order = some performed ∧
      performed.state = final.state ∧
      (∀ client, List.Forall₂ (DecodesTo runtime) (final.links client).replies
          ((performed.replies client).take (final.links client).replies.length) ∧
        (performed.replies client).length ≤ (final.links client).replies.length + 1) ∧
      (final.AtRest ((RpcServer.initial.bindAll runtime bindings).answer runtime) →
        ∀ client, performed.requests client = [] ∧
          (performed.replies client).length = (final.links client).replies.length) := by
  have good : ∀ client, ∀ request ∈ (calls client).map RemoteCall.request,
      Link.Answers ((RpcServer.initial.bindAll runtime bindings).answer runtime) request := by
    intro client request member
    obtain ⟨remote, -, rfl⟩ := List.mem_map.mp member
    exact remote.answers_request runtime distinct
  obtain ⟨service, answered, serves⟩ :=
    Network.serves_run (Network.Serves.connected ready good) whole ran
  obtain ⟨performed, ran, means⟩ := run_performs distinct state calls answered
  refine ⟨_, performed, ran, means.state.symm.trans serves.state, fun client => ?_,
    fun rest client => ?_⟩
  · obtain ⟨known, almost, -⟩ := (serves.stage client).known
    have length := (means.replies client).length_eq
    constructor
    · have taken := List.forall₂_take (final.links client).replies.length (means.replies client)
      rwa [← List.prefix_iff_eq_take.mp known] at taken
    · omega
  · have stuck := Network.not_canGo_of_rest rest client
    obtain ⟨none, -, all⟩ :=
      ((serves.stage client).canGo (serves.good client)).resolve_left stuck
    have requests := means.requests client
    rw [none] at requests
    exact ⟨List.map_eq_nil_iff.mp requests.symm, by rw [all, (means.replies client).length_eq]⟩

/-- Two functions that are bound. -/
def students : List (Bytes × Callable Nat) :=
  [(ascii "add" ++ [0], add), (ascii "get_stu" ++ [0], getStu)]

/-- A call of the second one. -/
def getPgj : RemoteCall students where
  data := ascii "get_stu" ++ [0]
  func := getStu
  bound := List.mem_cons_of_mem _ List.mem_cons_self
  args := pgj
  argsFit := ⟨trivial, trivial, trivial⟩
  requestSmall := by decide +kernel
  resultFits _ := ⟨trivial, trivial, trivial⟩
  replySmall _ := (by decide +kernel : (serialize (RpcResponse getStu.result)
    (rpcResponse .success [] (getStu.call pgj 0).1) ⟨[], 0⟩).buffer.length < 2 ^ 31)

/-- One client's request is read in two pieces and answered, while another one's is on its way. -/
theorem remote_calls_are_local_getStu :
    ∃ final, run
        (Network.step ((RpcServer.initial.bindAll sixtyFourBit students).answer sixtyFourBit))
        (.connected 0 (fun _ => 0) (fun _ : Bool => [getPgj.request]) fun _ => zeroed)
        [(true, .clientGoes zeroed), (false, .clientGoes zeroed), (true, .clientMoves 4),
          (true, .clientMoves 99), (false, .clientMoves 4), (true, .serverMoves 4),
          (true, .serverMoves 5), (true, .serverMoves 99), (true, .serverGoes zeroed)] =
            some final ∧
      ∃ order performed,
        run (Service.step fun remote state => some (RemoteCall.perform remote state))
          ⟨0, fun _ : Bool => [getPgj], fun _ => []⟩ order = some performed ∧
        performed.state = final.state ∧ final.state = 1 := by
  obtain ⟨final, ran, runs⟩ : ∃ final, run
      (Network.step ((RpcServer.initial.bindAll sixtyFourBit students).answer sixtyFourBit))
      (.connected 0 (fun _ => 0) (fun _ : Bool => [getPgj.request]) fun _ => zeroed)
      [(true, .clientGoes zeroed), (false, .clientGoes zeroed), (true, .clientMoves 4),
        (true, .clientMoves 99), (false, .clientMoves 4), (true, .serverMoves 4),
        (true, .serverMoves 5), (true, .serverMoves 99), (true, .serverGoes zeroed)] =
          some final ∧ final.state = 1 := Option.map_eq_some_iff.mp (by decide +kernel)
  obtain ⟨order, performed, locally, state, -⟩ := remote_calls_are_local sixtyFourBit
    (by decide) 0 (fun _ => 0) (fun _ : Bool => [getPgj]) (fun _ => zeroed) (fun _ => by decide) _
    final (by decide +kernel) ran
  exact ⟨final, ran, order, performed, locally, state, runs⟩

end Luce
