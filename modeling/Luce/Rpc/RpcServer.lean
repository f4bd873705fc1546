/-
This file models the server side of a remote call: the handler table, the proxy
that a bound function is wrapped in, and the answer to one request packet.

A proxy reads the arguments off the request's serializer, applies the function to
them and serializes the response. Functions come with their parameter types and
their result type, and run on a state of the server's own, so that what they are
applied to, and how often, can be observed. A parameter pack is a family over the
positions of its types: `makeTuple` packs it up, and `invoke` unpacks a tuple with
one `get` per index of the index sequence.
-/

import Luce.Codec.Serializer
import Mathlib.Logic.Function.Basic

namespace Luce

open Library.Binary

/-! ### Parameter packs -/

/-- One value for each position of the types. -/
abbrev Pack (types : List Ty) : Type := (index : Fin types.length) → (types.get index).Val

/-- `std::make_tuple(params...)`. -/
def makeTuple : (types : List Ty) → Pack types → Ty.Vals types
  | [], _ => ()
  | _ :: types, params =>
    (params ⟨0, Nat.zero_lt_succ _⟩, makeTuple types fun index => params index.succ)

/-- `std::get<Index>`. -/
def get : (types : List Ty) → (index : Fin types.length) → Ty.Vals types → (types.get index).Val
  | _ :: _, ⟨0, _⟩, values => values.1
  | _ :: types, ⟨index + 1, bound⟩, values =>
    get types ⟨index, Nat.lt_of_succ_lt_succ bound⟩ values.2

/-- A function to bind, with its decayed parameter types and its result type. -/
structure Callable (State : Type) where
  parameters : List Ty
  result : Ty
  call : Pack parameters → State → result.Val × State

variable {State : Type}

/-- `func(std::get<Index>(t)...)`. -/
def invoke (func : Callable State) (args : Ty.Vals func.parameters) :
    State → func.result.Val × State :=
  func.call fun index => get func.parameters index args

/-! ### Responses -/

inductive RpcErrCode where
  | success | functionNotFound | recvTimeout
deriving DecidableEq, Repr

def RpcErrCode.toNat : RpcErrCode → Nat
  | .success => 0
  | .functionNotFound => 1
  | .recvTimeout => 2

/-- `RpcResponse<T>`: its two methods visit the code, the message and the value. -/
abbrev RpcResponse (detail : Ty) : Ty := .user [.arithmetic .uint16, .string, detail]

/-- The response with these fields. -/
def rpcResponse {detail : Ty} (errCode : RpcErrCode) (errMsg : Bytes) (detailValue : detail.Val) :
    (RpcResponse detail).Val :=
  (Arithmetic.uint16.store errCode.toNat, errMsg, detailValue, ())

/-! ### The handler table -/

/-- The two serializers that a handler is given, and the state it runs on. -/
structure Invocation (State : Type) where
  input : Serializer
  output : Serializer
  state : State

abbrev HandleFunc (State : Type) := Invocation State → Except Fault (Invocation State)

structure RpcServer (State : Type) where
  handlers : Bytes → Option (HandleFunc State)

/-- The arguments are read into a fresh tuple. -/
def callProxy (runtime : Runtime) (func : Callable State) : HandleFunc State := fun invocation =>
  match deserialize runtime (.tuple func.parameters) (Ty.defaults func.parameters)
      invocation.input with
  | .error fault => .error fault
  | .ok (args, input) =>
    let (res, state) := invoke func args invocation.state
    let value : (RpcResponse func.result).Val := rpcResponse .success [] res
    .ok ⟨input, serialize (RpcResponse func.result) value invocation.output, state⟩

namespace RpcServer

/-- A server without handlers. -/
def initial : RpcServer State := ⟨fun _ => none⟩

/-- The key is made from `name.data()`, the bytes from the start of the name on. -/
def bind (runtime : Runtime) (server : RpcServer State) (data : Bytes) (func : Callable State) :
    RpcServer State :=
  ⟨Function.update server.handlers (cString data) (some (callProxy runtime func))⟩

/-- Successive `Bind` calls. -/
def bindAll (runtime : Runtime) (server : RpcServer State)
    (bindings : List (Bytes × Callable State)) : RpcServer State :=
  bindings.foldl (fun server binding => server.bind runtime binding.1 binding.2) server

/-- The message of the reply when no such function is bound. -/
def notBound (name : Bytes) : Bytes := ascii "function not bind: " ++ name

def callImpl (server : RpcServer State) (name : Bytes) (input : Serializer) (state : State) :
    Except Fault (Invocation State) :=
  let output : Serializer := ⟨[], 0⟩
  match server.handlers name with
  | none =>
    let output := serializeArithmetic .uint16
      (Arithmetic.uint16.store RpcErrCode.functionNotFound.toNat) output
    .ok ⟨input, serializeString (notBound name) output, state⟩
  | some func => func ⟨input, output, state⟩

/-- One turn of the loop: the packet that answers a request packet. -/
def onRequest (runtime : Runtime) (server : RpcServer State) (packet : Bytes) (state : State) :
    Except Fault (Bytes × State) :=
  match deserialize runtime .string ([] : Bytes) ⟨packet, 0⟩ with
  | .error fault => .error fault
  | .ok (funcName, serializer) =>
    match server.callImpl funcName serializer state with
    | .error fault => .error fault
    | .ok invocation => .ok (invocation.output.buffer, invocation.state)

end RpcServer

end Luce
