/-
This file models what the blocking client puts into a request packet and makes of
a reply packet.
-/

import Luce.Rpc.RpcServer

namespace Luce.BlockingRpcClient

open Library.Binary

/-- The request of `Call`: the name, then the tuple of the arguments. `Call` without
arguments serializes the name only, which is the same as an empty tuple behind it. -/
def call (name : Bytes) (types : List Ty) (params : Pack types) : Serializer :=
  let args := makeTuple types params
  let serializer := serializeString name ⟨[], 0⟩
  match types with
  | [] => serializer
  | _ :: _ => serialize (.tuple types) args serializer

/-- `NetCall` reads the reply into a fresh response. -/
def netCall (runtime : Runtime) (result : Ty) (reply : Bytes) :
    Except Fault ((RpcResponse result).Val × Serializer) :=
  deserialize runtime (RpcResponse result) (RpcResponse result).default ⟨reply, 0⟩

end Luce.BlockingRpcClient
