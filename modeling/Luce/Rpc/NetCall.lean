/-
This file models a call of the blocking client on its connection.

`NetCall` writes the request, unless `err_code_` says that the last call has timed out, and
reads a packet. A packet without a body counts as a timeout. `ReadPacket` returns a `size_t`,
so `recv_res < 0` never holds: what it returns for a header that it could not read is a size
like any other, and the empty buffer is decoded.
-/

import Luce.Rpc.ClientReading
import Luce.Rpc.RpcClient

namespace Luce.BlockingRpcClient

open Library.Binary Library.Stream Library.Fuel

/-- Why a call does not return. -/
inductive NetCallFault where
  /-- The request has not been written, which is fatal. -/
  | sendError
  | memory (fault : MemoryFault)
  | decoding (fault : Fault)
deriving DecidableEq, Repr

/-- A client with both directions of `client_fd_`. The constructor leaves `err_code_` as it
finds it. -/
structure Client where
  errCode : Int
  outgoing : Sink Byte Errno
  incoming : ClientFd

/-- A `head_buffer` whose bytes happen to be zero. -/
def zeroed : HeadBuffer := ⟨[0, 0, 0, 0], rfl⟩

/-- The response of a call that has timed out. -/
def timeout (result : Ty) : (RpcResponse result).Val :=
  rpcResponse .recvTimeout (ascii "recv timeout") result.default

namespace Client

/-- The first half of `NetCall`. -/
def send (client : Client) (request : Bytes) : Run NetCallFault Client :=
  if client.errCode = RpcErrCode.recvTimeout.toNat then pure client
  else
    let (res, outgoing) := writePacket client.outgoing request
    if res = request.length then pure { client with outgoing } else raise .sendError

/-- What `NetCall` makes of what `ReadPacket` has returned. -/
def conclude (runtime : Runtime) (client : Client) (result : Ty) (reply : ReadResult) :
    Run NetCallFault ((RpcResponse result).Val × Client) :=
  let client := { client with incoming := reply.clientFd }
  if reply.size = 0 then
    pure (timeout result, { client with errCode := RpcErrCode.recvTimeout.toNat })
  else
    match BlockingRpcClient.netCall runtime result reply.buffer with
    | .ok (value, _) => pure (value, { client with errCode := RpcErrCode.success.toNat })
    | .error fault => raise (.decoding fault)

/-- The second half of `NetCall`. -/
def receive (fuel : Nat) (runtime : Runtime) (client : Client) (result : Ty)
    (headBuffer : HeadBuffer) : Run NetCallFault ((RpcResponse result).Val × Client) := do
  let reply ← raisedAs .memory (readPacket fuel client.incoming [] headBuffer)
  client.conclude runtime result reply

def netCall (fuel : Nat) (runtime : Runtime) (client : Client) (result : Ty) (request : Bytes)
    (headBuffer : HeadBuffer) : Run NetCallFault ((RpcResponse result).Val × Client) := do
  let client ← client.send request
  client.receive fuel runtime result headBuffer

variable {runtime : Runtime} {client sent : Client} {result : Ty} {request : Bytes}
  {headBuffer : HeadBuffer} {outcome : (RpcResponse result).Val × Client}

/-- The second half returns what is made of what `ReadPacket` returns. -/
theorem receive_eq_ok_iff :
    (∃ fuel, client.receive fuel runtime result headBuffer = .ok outcome) ↔
      ∃ reply, Returns client.incoming ⟨[], headBuffer⟩ reply ∧
        client.conclude runtime result reply = .ok outcome := by
  simp only [receive, bind_eq_ok, raisedAs_eq_ok, Returns]
  constructor
  · rintro ⟨fuel, reply, ran, concluded⟩
    exact ⟨reply, ⟨fuel, ran⟩, concluded⟩
  · rintro ⟨reply, ⟨fuel, ran⟩, concluded⟩
    exact ⟨fuel, reply, ran, concluded⟩

/-- A call whose request has been written, or is not to be written, is its second half. -/
theorem netCall_of_send (written : client.send request = .ok sent) (fuel : Nat) :
    client.netCall fuel runtime result request headBuffer =
      sent.receive fuel runtime result headBuffer := by
  rw [netCall, written, ok_bind]

theorem send_of_timeout (timedOut : client.errCode = RpcErrCode.recvTimeout.toNat)
    (request : Bytes) : client.send request = .ok client := if_pos timedOut

theorem send_of_ready (ready : client.errCode ≠ RpcErrCode.recvTimeout.toNat)
    (whole : (writePacket client.outgoing request).1 = request.length) :
    client.send request =
      .ok { client with outgoing := (writePacket client.outgoing request).2 } := by
  rw [send, if_neg ready]
  exact if_pos whole

end Client

end Luce.BlockingRpcClient
