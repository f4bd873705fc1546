/-
This file decides when the calls of a client and the replies to them stay paired.

The connection takes each request, and the server answers each request on the wire with one
reply. A client whose `err_code_` is the code of a timeout writes no request, so it waits for
a reply that nobody sends: whatever the constructor has found there, and behind a reply
without a body.
-/

import Luce.Codec.RoundTrip
import Luce.Rpc.NetCall
import Luce.Rpc.Sending

namespace Luce.BlockingRpcClient

open Library.Binary Library.Stream Library.Framing Library.LittleEndian Library.Fuel

/-! ### Calls on a connection -/

/-- A call, the reply of the server to it, and what the connection does meanwhile. -/
structure Exchange where
  result : Ty
  request : Bytes
  acceptances : List (Acceptance Errno)
  reply : Bytes
  deliveries : List (Delivery Errno)
  headBuffer : HeadBuffer

namespace Exchange

/-- What the reply stands for. -/
def response (runtime : Runtime) (exchange : Exchange) :
    Except Fault (RpcResponse exchange.result).Val :=
  if exchange.reply = [] then .ok (timeout exchange.result)
  else (BlockingRpcClient.netCall runtime exchange.result exchange.reply).map Prod.fst

/-- The connection takes the packet of the request, and hands out the packet of the reply,
which can be decoded. -/
structure Delivers (runtime : Runtime) (exchange : Exchange) : Prop where
  sends : ∀ accepted, ∃ events,
    writePacket ⟨accepted, exchange.acceptances⟩ exchange.request =
      (exchange.request.length, ⟨accepted ++ frame headerSize exchange.request, events⟩)
  returns : ∃ events,
    Returns ⟨⟨frame headerSize exchange.reply, exchange.deliveries⟩, false⟩
      ⟨[], exchange.headBuffer⟩
      ⟨exchange.reply.length, exchange.reply, ⟨⟨[], events⟩, false⟩⟩
  decodes : ∃ value, exchange.response runtime = .ok value

/-- The packets pass if their headers do in one piece, and no failure is for good. -/
theorem delivers_of_whole {runtime : Runtime} {exchange : Exchange}
    (smallRequest : exchange.request.length < 2 ^ 32) (smallReply : exchange.reply.length < 2 ^ 32)
    (header : taken headerSize exchange.acceptances = headerSize)
    (body : accepts Errno.retryable exchange.request.length exchange.acceptances.tail = true)
    (retryable : ∀ errno, .fail errno ∈ exchange.deliveries → errno.retryable = true)
    (whole : allowance headerSize (afterFailures exchange.deliveries) = headerSize)
    (decodes : ∃ value, exchange.response runtime = .ok value) :
    exchange.Delivers runtime where
  sends accepted := by
    obtain ⟨reports, wire⟩ := writePacket_sends ⟨accepted, exchange.acceptances⟩ smallRequest
    have reported := reports.mpr ⟨by rw [header]; decide, body⟩
    have sent := (wire reported).trans
      ((front_eq_frame_iff accepted exchange.request (taken_le _ _)).mpr header)
    exact ⟨_, Prod.ext reported (congrArg (Sink.mk · _) sent)⟩
  returns := by
    let clientFd : ClientFd := ⟨⟨frame headerSize exchange.reply, exchange.deliveries⟩, false⟩
    have pending : clientFd.stream.pending = frame headerSize exchange.reply ++ [] :=
      (List.append_nil _).symm
    have returns := returns_whole (⟨rfl, retryable⟩ : clientFd.Unbroken) smallReply pending whole
      ⟨[], exchange.headBuffer⟩
    have behind : clientFd.behind exchange.reply.length =
        ⟨⟨[], (clientFd.behind exchange.reply.length).stream.events⟩, false⟩ := by
      have nothing := ClientFd.pending_behind pending
      rw [← nothing]
      rfl
    rw [behind] at returns
    exact ⟨_, returns⟩
  decodes := decodes

end Exchange

namespace Client

/-- The client as a call finds it. -/
def during (client : Client) (exchange : Exchange) : Client :=
  { client with
    outgoing := { client.outgoing with events := exchange.acceptances }
    incoming := { client.incoming with
      stream := { client.incoming.stream with events := exchange.deliveries } } }

/-- The reply is sent when the request is on the wire. -/
def answered (client sent : Client) (exchange : Exchange) : Client :=
  if sent.outgoing.accepted = client.outgoing.accepted then sent
  else { sent with
    incoming := { sent.incoming with
      stream := { sent.incoming.stream with
        pending := sent.incoming.stream.pending ++ frame headerSize exchange.reply } } }

/-- Each call puts its own request on the wire and then returns what the reply to it stands
for. -/
def Paired (runtime : Runtime) : Client → List Exchange → Prop
  | _, [] => True
  | client, exchange :: exchanges => ∃ sent value next,
    (client.during exchange).send exchange.request = .ok sent ∧
      sent.outgoing.accepted = client.outgoing.accepted ++ frame headerSize exchange.request ∧
      (∃ fuel, (client.answered sent exchange).receive fuel runtime exchange.result
        exchange.headBuffer = .ok (value, next)) ∧
      exchange.response runtime = .ok value ∧ Paired runtime next exchanges

/-- Nothing is under way, and the server keeps its end open. -/
def Quiet (client : Client) : Prop :=
  client.incoming.stream.pending = [] ∧ client.incoming.serverClosed = false

variable {runtime : Runtime} {client : Client} {exchange : Exchange}

/-! ### One call -/

theorem frame_ne_nil (payload : Bytes) : frame headerSize payload ≠ [] := by
  intro empty
  have length := congrArg List.length empty
  rw [frame, List.length_append, length_leBytes] at length
  simp [headerSize] at length

/-- A client that believes in a timeout puts no request on the wire. -/
theorem not_paired_of_timeout (timedOut : client.errCode = RpcErrCode.recvTimeout.toNat)
    (exchange : Exchange) (exchanges : List Exchange) :
    ¬ client.Paired runtime (exchange :: exchanges) := by
  rintro ⟨sent, value, next, written, wire, -⟩
  have still : (client.during exchange).errCode = RpcErrCode.recvTimeout.toNat := timedOut
  cases (send_of_timeout still exchange.request).symm.trans written
  exact frame_ne_nil _ (List.append_cancel_left (wire.symm.trans (List.append_nil _).symm))

theorem receive_unique {fuel more : Nat} {result : Ty} {headBuffer : HeadBuffer}
    {first second : (RpcResponse result).Val × Client}
    (one : client.receive fuel runtime result headBuffer = .ok first)
    (other : client.receive more runtime result headBuffer = .ok second) : first = second := by
  obtain ⟨reply, returns, concluded⟩ := receive_eq_ok_iff.mp ⟨fuel, one⟩
  obtain ⟨again, returnsAgain, concludedAgain⟩ := receive_eq_ok_iff.mp ⟨more, other⟩
  cases returns.unique returnsAgain
  exact Except.ok.inj (concluded.symm.trans concludedAgain)

/-- What is made of a reply that has arrived. -/
theorem conclude_reply (client : Client) {exchange : Exchange} {clientFd : ClientFd}
    {value : (RpcResponse exchange.result).Val} (decoded : exchange.response runtime = .ok value) :
    ∃ next, client.conclude runtime exchange.result
        ⟨exchange.reply.length, exchange.reply, clientFd⟩ = .ok (value, next) ∧
      next.incoming = clientFd ∧
      (next.errCode = RpcErrCode.recvTimeout.toNat ↔ exchange.reply = []) := by
  rw [Exchange.response] at decoded
  by_cases empty : exchange.reply = []
  · rw [if_pos empty] at decoded
    cases decoded
    refine ⟨_, if_pos (List.length_eq_zero_iff.mpr empty), rfl, iff_of_true rfl empty⟩
  · rw [if_neg empty] at decoded
    have some : exchange.reply.length ≠ 0 := fun zero => empty (List.length_eq_zero_iff.mp zero)
    simp only [conclude, if_neg some]
    cases read : BlockingRpcClient.netCall runtime exchange.result exchange.reply with
    | error fault =>
      rw [read] at decoded
      cases decoded
    | ok outcome =>
      rw [read] at decoded
      cases decoded
      have differs : (RpcErrCode.success.toNat : Int) ≠ RpcErrCode.recvTimeout.toNat := by decide
      exact ⟨_, rfl, rfl, iff_of_false differs empty⟩

/-- A client that is ready writes its request, and the reply arrives. -/
theorem send_answered (ready : client.errCode ≠ RpcErrCode.recvTimeout.toNat)
    (quiet : client.Quiet) (delivers : exchange.Delivers runtime) :
    ∃ sent, (client.during exchange).send exchange.request = .ok sent ∧
      sent.outgoing.accepted = client.outgoing.accepted ++ frame headerSize exchange.request ∧
      (client.answered sent exchange).incoming =
        ⟨⟨frame headerSize exchange.reply, exchange.deliveries⟩, false⟩ := by
  obtain ⟨events, wrote⟩ := delivers.sends client.outgoing.accepted
  have reported : (writePacket (client.during exchange).outgoing exchange.request).1 =
      exchange.request.length := congrArg Prod.fst wrote
  have wire : (writePacket (client.during exchange).outgoing exchange.request).2.accepted =
      client.outgoing.accepted ++ frame headerSize exchange.request :=
    congrArg (fun written => written.2.accepted) wrote
  have readyDuring : (client.during exchange).errCode ≠ RpcErrCode.recvTimeout.toNat := ready
  refine ⟨_, send_of_ready readyDuring reported, wire, ?_⟩
  have fresh : client.outgoing.accepted ++ frame headerSize exchange.request ≠
      client.outgoing.accepted := fun same =>
    frame_ne_nil _ (List.append_cancel_left (same.trans (List.append_nil _).symm))
  rw [answered, wire, if_neg fresh]
  simp only [during, quiet.1, quiet.2, List.nil_append]

/-- A client that is ready makes one call as it should, and is not ready for another one just
when the reply has no body. -/
theorem paired_cons (ready : client.errCode ≠ RpcErrCode.recvTimeout.toNat) (quiet : client.Quiet)
    (delivers : exchange.Delivers runtime) :
    ∃ next : Client, next.Quiet ∧
      (next.errCode = RpcErrCode.recvTimeout.toNat ↔ exchange.reply = []) ∧
      ∀ exchanges, client.Paired runtime (exchange :: exchanges) ↔
        next.Paired runtime exchanges := by
  obtain ⟨sent, written, wire, arrived⟩ := send_answered ready quiet delivers
  obtain ⟨events, returns⟩ := delivers.returns
  obtain ⟨value, decoded⟩ := delivers.decodes
  obtain ⟨next, concluded, incoming, timedOut⟩ :=
    conclude_reply (client.answered sent exchange) decoded
  rw [← arrived] at returns
  obtain ⟨fuel, received⟩ := receive_eq_ok_iff.mpr ⟨_, returns, concluded⟩
  refine ⟨next, ⟨by rw [incoming], by rw [incoming]⟩, timedOut, fun exchanges => ?_⟩
  constructor
  · rintro ⟨again, other, after, writes, -, ⟨more, receives⟩, -, paired⟩
    cases written.symm.trans writes
    cases receive_unique received receives
    exact paired
  · intro paired
    exact ⟨sent, value, next, written, wire, ⟨fuel, received⟩, decoded, paired⟩

/-! ### All calls -/

/-- The calls and the replies stay paired exactly when the client does not start out with the
code of a timeout, and no reply but the last one is without a body. -/
theorem paired_iff (runtime : Runtime) (client : Client) (exchanges : List Exchange)
    (quiet : client.Quiet) (delivers : ∀ exchange ∈ exchanges, exchange.Delivers runtime) :
    client.Paired runtime exchanges ↔
      exchanges = [] ∨ client.errCode ≠ RpcErrCode.recvTimeout.toNat ∧
        ∀ exchange ∈ exchanges.dropLast, exchange.reply ≠ [] := by
  induction exchanges generalizing client with
  | nil => exact iff_of_true trivial (.inl rfl)
  | cons exchange exchanges inductionHypothesis =>
    obtain ⟨first, others⟩ := List.forall_mem_cons.mp delivers
    by_cases ready : client.errCode = RpcErrCode.recvTimeout.toNat
    · refine iff_of_false (not_paired_of_timeout ready exchange exchanges) ?_
      rintro (nothing | ⟨differs, -⟩)
      · cases nothing
      · exact differs ready
    · obtain ⟨next, quietNext, timedOut, rest⟩ := paired_cons ready quiet first
      rw [rest, inductionHypothesis next quietNext others, Ne, timedOut]
      cases exchanges with
      | nil => simp [ready]
      | cons second later => simp [ready]

/-- A request for a function without parameters. -/
def pingRequest : Bytes := (call (ascii "ping") [] fun index => index.elim0).buffer

/-- The reply of a server that has called it, without a result. -/
def pingReply : Bytes :=
  (serialize (RpcResponse (.tuple [])) (rpcResponse .success [] ()) ⟨[], 0⟩).buffer

/-- Such a call on a connection that passes everything on at once. -/
def ping (reply : Bytes) : Exchange :=
  ⟨.tuple [], pingRequest, [], reply, [], zeroed⟩

theorem ping_delivers {reply : Bytes} (small : reply.length < 2 ^ 32)
    (decodes : ∃ value, (ping reply).response sixtyFourBit = .ok value) :
    (ping reply).Delivers sixtyFourBit := by
  have smallRequest : pingRequest.length < 2 ^ 32 := by decide
  exact Exchange.delivers_of_whole smallRequest small rfl rfl nofun rfl decodes

/-- A client that has just been connected. -/
def connected (errCode : Int) : Client := ⟨errCode, ⟨[], []⟩, ⟨⟨[], []⟩, false⟩⟩

/-- Two calls that are answered. -/
theorem paired_pings : (connected 0).Paired sixtyFourBit [ping pingReply, ping pingReply] := by
  have answered : (ping pingReply).Delivers sixtyFourBit := ping_delivers (by decide) ⟨_, rfl⟩
  refine (paired_iff sixtyFourBit (connected 0) [ping pingReply, ping pingReply] ⟨rfl, rfl⟩
    ?_).mpr (.inr ⟨by decide, ?_⟩)
  · exact List.forall_mem_cons.mpr ⟨answered, List.forall_mem_singleton.mpr answered⟩
  · exact List.forall_mem_singleton.mpr (by decide)

/-- The constructor has found the code of a timeout; and behind a reply without a body the next
call waits for a reply to nothing. -/
theorem not_paired_pings : ¬ (connected 2).Paired sixtyFourBit [ping pingReply] ∧
    ¬ (connected 0).Paired sixtyFourBit [ping [], ping pingReply] := by
  refine ⟨not_paired_of_timeout rfl _ _, fun paired => ?_⟩
  have ready : (connected 0).errCode ≠ RpcErrCode.recvTimeout.toNat := by decide
  have delivers : (ping []).Delivers sixtyFourBit := ping_delivers (by decide) ⟨_, rfl⟩
  obtain ⟨next, -, timedOut, rest⟩ := paired_cons ready ⟨rfl, rfl⟩ delivers
  exact not_paired_of_timeout (timedOut.mpr rfl) _ _ ((rest [ping pingReply]).mp paired)

end Client

end Luce.BlockingRpcClient
