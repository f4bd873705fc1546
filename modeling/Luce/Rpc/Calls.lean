/-
This file proves what a client sees of a remote call. A call of a bound function is
the local call: the server decodes the name and the arguments that the client
encoded, runs the function once on exactly these, and the client decodes its result.

A call of an unbound name is answered by a code and a message. The client decodes
every reply as a whole response, value included, so this reply is decodable exactly
when the result type takes no room in a packet.
-/

import Luce.Codec.RoundTrip
import Luce.Rpc.RpcClient

namespace Luce

open Library.Binary Library.LittleEndian BlockingRpcClient

variable {State : Type}

/-! ### Parameter packs -/

/-- Unpacking a tuple gives the parameters it was made from. -/
@[simp] theorem get_makeTuple : ∀ (types : List Ty) (params : Pack types)
    (index : Fin types.length), get types index (makeTuple types params) = params index
  | _ :: _, _, ⟨0, _⟩ => rfl
  | _ :: types, params, ⟨index + 1, bound⟩ =>
    get_makeTuple types (fun index => params index.succ) ⟨index, Nat.lt_of_succ_lt_succ bound⟩

theorem invoke_makeTuple (func : Callable State) (params : Pack func.parameters) (state : State) :
    invoke func (makeTuple func.parameters params) state = func.call params state := by
  simp only [invoke, get_makeTuple]

/-! ### The handler table -/

theorem bindAll_other (runtime : Runtime) (name : Bytes) :
    ∀ (bindings : List (Bytes × Callable State)) (server : RpcServer State),
      (∀ binding ∈ bindings, cString binding.1 ≠ name) →
        (server.bindAll runtime bindings).handlers name = server.handlers name
  | [], _, _ => rfl
  | binding :: bindings, server, others => by
    obtain ⟨other, others⟩ := List.forall_mem_cons.mp others
    have unchanged := bindAll_other runtime name bindings
      (server.bind runtime binding.1 binding.2) others
    exact unchanged.trans (Function.update_of_ne other.symm _ _)

/-- Each of several functions bound under distinct names is the handler of its name. -/
theorem bindAll_bound (runtime : Runtime) {data : Bytes} {func : Callable State} :
    ∀ (bindings : List (Bytes × Callable State)) (server : RpcServer State),
      (bindings.map fun binding => cString binding.1).Nodup → (data, func) ∈ bindings →
        (server.bindAll runtime bindings).handlers (cString data) =
          some (callProxy runtime func)
  | binding :: bindings, server, distinct, member => by
    rw [List.map_cons, List.nodup_cons] at distinct
    obtain ⟨fresh, distinct⟩ := distinct
    rcases List.mem_cons.mp member with rfl | member
    · have others : ∀ binding ∈ bindings, cString binding.1 ≠ cString data :=
        fun binding member same => fresh (same ▸ List.mem_map_of_mem member)
      exact (bindAll_other runtime _ bindings _ others).trans (Function.update_self _ _ _)
    · exact bindAll_bound runtime bindings _ distinct member

/-! ### A call of a bound function -/

theorem serialize_buffer (type : Ty) (value : type.Val) (serializer : Serializer) :
    (serialize type value serializer).buffer = serializer.buffer ++ type.image value := by
  rw [serialize_eq]
  rfl

/-- A request packet is the image of the name and the images of the arguments. -/
theorem call_buffer (name : Bytes) (types : List Ty) (params : Pack types) :
    (call name types params).buffer =
      stringImage name ++ Ty.images types (makeTuple types params) := by
  have named : (serializeString name ⟨[], 0⟩).buffer = stringImage name := by
    rw [serializeString_eq]
    rfl
  cases types with
  | nil => exact named.trans (List.append_nil _).symm
  | cons type types =>
    exact (serialize_buffer (.tuple (type :: types)) _ _).trans (by rw [named]; rfl)

/-- Deserializing an image behind a prefix, with nothing behind it. -/
theorem deserialize_last (runtime : Runtime) (type : Ty) (value target : type.Val)
    (before : Bytes) (fits : type.Fits value)
    (small : (before ++ type.image value).length < 2 ^ 31) :
    deserialize runtime type target ⟨before ++ type.image value, before.length⟩ =
      .ok (value, ⟨before ++ type.image value, (before ++ type.image value).length⟩) := by
  rw [List.length_append] at small ⊢
  have read := deserialize_image runtime type value target before [] fits small
  rwa [List.append_nil] at read

/-- The server decodes this name from the packet, and these arguments behind it. -/
def Decodes (runtime : Runtime) (packet name : Bytes) (types : List Ty) (args : Ty.Vals types) :
    Prop :=
  ∃ named finished,
    deserialize runtime .string ([] : Bytes) ⟨packet, 0⟩ = .ok (name, named) ∧
      deserialize runtime (.tuple types) (Ty.defaults types) named = .ok (args, finished)

/-- The proxy reads the arguments off the request and serializes what the function
gives for them. -/
theorem callProxy_eq (runtime : Runtime) (func : Callable State) (params : Pack func.parameters)
    (invocation : Invocation State) {finished : Serializer}
    (decoded : deserialize runtime (.tuple func.parameters) (Ty.defaults func.parameters)
      invocation.input = .ok (makeTuple func.parameters params, finished)) :
    callProxy runtime func invocation =
      .ok ⟨finished, serialize (RpcResponse func.result)
        (rpcResponse .success [] (func.call params invocation.state).1) invocation.output,
        (func.call params invocation.state).2⟩ := by
  simp only [callProxy, decoded, invoke_makeTuple]

/-- The images of a name and of arguments are decoded as these. -/
theorem decodes_images (runtime : Runtime) (name : Bytes) (types : List Ty)
    (args : Ty.Vals types) (fits : Ty.AllFit types args)
    (small : (stringImage name ++ Ty.images types args).length < 2 ^ 31) :
    Decodes runtime (stringImage name ++ Ty.images types args) name types args := by
  have nameSmall : (stringImage name).length < 2 ^ 31 := by
    rw [List.length_append] at small
    omega
  have named := deserialize_image runtime .string name ([] : Bytes) [] (Ty.images types args)
    trivial (show 0 + (stringImage name).length < _ by omega)
  have decoded := deserialize_last runtime (.tuple types) args (Ty.defaults types)
    (stringImage name) fits small
  simp only [List.nil_append, List.length_nil, Nat.zero_add] at named
  exact ⟨_, _, named, decoded⟩

/-- A request for a bound function runs it once, on the arguments that are decoded. -/
theorem onRequest_bound (runtime : Runtime) {server : RpcServer State} {name packet : Bytes}
    {func : Callable State} (handled : server.handlers name = some (callProxy runtime func))
    {args : Pack func.parameters}
    (decodes : Decodes runtime packet name func.parameters (makeTuple func.parameters args))
    (state : State) :
    server.onRequest runtime packet state =
      .ok ((serialize (RpcResponse func.result)
        (rpcResponse .success [] (func.call args state).1) ⟨[], 0⟩).buffer,
        (func.call args state).2) := by
  obtain ⟨named, finished, name_eq, args_eq⟩ := decodes
  have proxied := callProxy_eq runtime func args ⟨named, ⟨[], 0⟩, state⟩ args_eq
  simp only [RpcServer.onRequest, name_eq, RpcServer.callImpl, handled, proxied]

/-- The client decodes a serialized response as that response. -/
theorem netCall_response (runtime : Runtime) (result : Ty) (response : (RpcResponse result).Val)
    (fits : (RpcResponse result).Fits response)
    (small : ((RpcResponse result).image response).length < 2 ^ 31) :
    ∃ finished, netCall runtime result ((RpcResponse result).image response) =
      .ok (response, finished) :=
  ⟨_, deserialize_last runtime (RpcResponse result) response _ [] fits small⟩

/-- A remote call of a bound function is the local call. The client's argument types
need not be the server's parameter types, as long as they serialize alike. -/
theorem call_eq_local (runtime : Runtime) (bindings : List (Bytes × Callable State))
    (distinct : (bindings.map fun binding => cString binding.1).Nodup)
    {data : Bytes} {func : Callable State} (bound : (data, func) ∈ bindings)
    (args : Pack func.parameters) {types : List Ty} (params : Pack types)
    (alike : (serializeAll types (makeTuple types params) ⟨[], 0⟩).buffer =
      (serializeAll func.parameters (makeTuple func.parameters args) ⟨[], 0⟩).buffer)
    (state : State)
    (argsFit : Ty.AllFit func.parameters (makeTuple func.parameters args))
    (resultFits : func.result.Fits (func.call args state).1)
    (requestSmall : (call (cString data) types params).buffer.length < 2 ^ 31)
    (replySmall : (serialize (RpcResponse func.result)
      (rpcResponse .success [] (func.call args state).1) ⟨[], 0⟩).buffer.length < 2 ^ 31) :
    Decodes runtime (call (cString data) types params).buffer (cString data) func.parameters
        (makeTuple func.parameters args) ∧
      ∃ reply, (RpcServer.initial.bindAll runtime bindings).onRequest runtime
          (call (cString data) types params).buffer state =
            .ok (reply, (func.call args state).2) ∧
        ∃ finished, netCall runtime func.result reply =
          .ok (rpcResponse .success [] (func.call args state).1, finished) := by
  have sameImages : Ty.images types (makeTuple types params) =
      Ty.images func.parameters (makeTuple func.parameters args) := by
    simpa only [serializeAll_eq, append, List.nil_append] using alike
  rw [call_buffer, sameImages] at requestSmall ⊢
  rw [serialize_buffer] at replySmall
  have handled : (RpcServer.initial.bindAll runtime bindings).handlers (cString data) =
      some (callProxy runtime func) := bindAll_bound runtime bindings _ distinct bound
  have decodes := decodes_images runtime (cString data) func.parameters _ argsFit requestSmall
  have response := netCall_response runtime func.result
    (rpcResponse .success [] (func.call args state).1) ⟨trivial, trivial, resultFits, trivial⟩
    replySmall
  refine ⟨decodes, _, onRequest_bound runtime handled decodes state, ?_⟩
  rwa [serialize_buffer]

/-- Adds two numbers, counting its runs. -/
def add : Callable Nat where
  parameters := [.arithmetic .int32, .arithmetic .int32]
  result := .arithmetic .int32
  call params runs :=
    let a : Arithmetic.int32.Val := params 0
    let b : Arithmetic.int32.Val := params 1
    (Arithmetic.int32.store (Arithmetic.load a + Arithmetic.load b), runs + 1)

/-- Pairs up a name and an age, counting its runs. -/
def getStu : Callable Nat where
  parameters := [.string, .arithmetic .int32]
  result := .user [.string, .arithmetic .int32]
  call params runs := ((params 0, params 1, ()), runs + 1)

/-- The parameters of a call to `getStu`. -/
def pgj : Pack getStu.parameters
  | ⟨0, _⟩ => ascii "pgj"
  | ⟨1, _⟩ => Arithmetic.int32.store 21

/-- A call of the second of two bound functions, on a server that has run one before. -/
theorem call_eq_local_getStu :
    Decodes sixtyFourBit (call (ascii "get_stu") getStu.parameters pgj).buffer (ascii "get_stu")
        getStu.parameters (makeTuple getStu.parameters pgj) ∧
      ∃ reply, (RpcServer.initial.bindAll sixtyFourBit
          [(ascii "add" ++ [0], add), (ascii "get_stu" ++ [0], getStu)]).onRequest sixtyFourBit
            (call (ascii "get_stu") getStu.parameters pgj).buffer 1 = .ok (reply, 2) ∧
        ∃ finished, netCall sixtyFourBit getStu.result reply =
          .ok (rpcResponse .success [] (ascii "pgj", Arithmetic.int32.store 21, ()), finished) := by
  have name : cString (ascii "get_stu" ++ [0]) = ascii "get_stu" := by decide
  have locally := call_eq_local sixtyFourBit
    [(ascii "add" ++ [0], add), (ascii "get_stu" ++ [0], getStu)] (by decide)
    (List.mem_cons_of_mem _ List.mem_cons_self) pgj pgj rfl 1
    ⟨trivial, trivial, trivial⟩ ⟨trivial, trivial, trivial⟩
    (by decide +kernel) (by decide +kernel)
  rw [name] at locally
  exact locally

/-! ### A call of an unbound name -/

mutual

/-- The type takes no room in a packet: it is made up of nothing but tuples and structs. -/
def Ty.Hollow : Ty → Prop
  | .arithmetic _ | .string | .sequence _ _ => False
  | .tuple elements => Ty.AllHollow elements
  | .user fields => Ty.AllHollow fields

def Ty.AllHollow : List Ty → Prop
  | [] => True
  | type :: types => type.Hollow ∧ Ty.AllHollow types

end

mutual

/-- The hollow types are those whose values have an empty image. -/
theorem hollow_iff : ∀ (type : Ty) (value : type.Val), type.Hollow ↔ type.image value = []
  | .arithmetic kind, value => by
    have length : (Ty.image (.arithmetic kind) value).length = kind.sizeof := value.property
    refine iff_of_false id fun empty => ?_
    rw [empty] at length
    cases kind <;> exact absurd length (by decide)
  | .string, _ => iff_of_false id (List.cons_ne_nil _ _)
  | .sequence _ _, _ => iff_of_false id (List.cons_ne_nil _ _)
  | .tuple elements, value => allHollow_iff elements value
  | .user fields, value => allHollow_iff fields value

theorem allHollow_iff : ∀ (types : List Ty) (values : Ty.Vals types),
    Ty.AllHollow types ↔ Ty.images types values = []
  | [], _ => iff_of_true trivial rfl
  | type :: types, values => by
    rw [Ty.AllHollow, Ty.images, List.append_eq_nil_iff, hollow_iff type values.1,
      allHollow_iff types values.2]

end

mutual

/-- The values of hollow types are valid. -/
theorem valid_of_hollow (runtime : Runtime) : ∀ (type : Ty) (value : type.Val),
    type.Hollow → type.Valid runtime value
  | .tuple elements, value, hollow => allValid_of_allHollow runtime elements value hollow
  | .user fields, value, hollow => allValid_of_allHollow runtime fields value hollow

theorem allValid_of_allHollow (runtime : Runtime) : ∀ (types : List Ty) (values : Ty.Vals types),
    Ty.AllHollow types → Ty.AllValid runtime types values
  | [], _, _ => trivial
  | type :: types, values, hollow =>
    ⟨valid_of_hollow runtime type values.1 hollow.1,
      allValid_of_allHollow runtime types values.2 hollow.2⟩

end

/-- The images of the code and the message that answer an unbound name. -/
def notBoundImage (name : Bytes) : Bytes :=
  (Arithmetic.uint16.store RpcErrCode.functionNotFound.toNat).val ++
    stringImage (RpcServer.notBound name)

theorem callImpl_unbound {server : RpcServer State} {name : Bytes}
    (unbound : server.handlers name = none) (input : Serializer) (state : State) :
    server.callImpl name input state = .ok ⟨input, ⟨notBoundImage name, 0⟩, state⟩ := by
  simp only [RpcServer.callImpl, unbound, serializeString_eq]
  rfl

theorem length_notBoundImage (name : Bytes) : (notBoundImage name).length = 29 + name.length := by
  have header : (leBytes 8 (RpcServer.notBound name).length).length = 8 := length_leBytes _ _
  have code : (Arithmetic.uint16.store RpcErrCode.functionNotFound.toNat).val.length = 2 := rfl
  have text : (ascii "function not bind: ").length = 19 := by decide
  rw [notBoundImage, List.length_append, stringImage, List.length_append, header, code,
    RpcServer.notBound, List.length_append, text]
  omega

/-- A response that begins with these is the reply and the image of its value. -/
theorem response_image {detail : Ty} (name : Bytes) (value : detail.Val) :
    (RpcResponse detail).image
        (rpcResponse .functionNotFound (RpcServer.notBound name) value) =
      notBoundImage name ++ detail.image value := by
  have last : Ty.images [detail] (value, ()) = detail.image value := List.append_nil _
  have unfolded : (RpcResponse detail).image
      (rpcResponse .functionNotFound (RpcServer.notBound name) value) =
        (Arithmetic.uint16.store RpcErrCode.functionNotFound.toNat).val ++
          (stringImage (RpcServer.notBound name) ++ Ty.images [detail] (value, ())) := rfl
  rw [unfolded, last, notBoundImage, List.append_assoc]

/-- The reply to this name is decoded as a whole response, with no read outside it
and nothing left over, and the response holds the code and the message. -/
def NotBoundDecodes (runtime : Runtime) (server : RpcServer State) (name : Bytes)
    (input : Serializer) (state : State) (result : Ty) : Prop :=
  ∃ answered detail finished, server.callImpl name input state = .ok answered ∧
    netCall runtime result answered.output.buffer =
      .ok (rpcResponse .functionNotFound (RpcServer.notBound name) detail, finished) ∧
    finished.position = answered.output.buffer.length

/-- The reply to an unbound name is decoded exactly when the result type takes no
room in a packet and the name leaves the reply within the range of an `int`. -/
theorem notBound_decodes_iff (runtime : Runtime) (server : RpcServer State) (name : Bytes)
    (unbound : server.handlers name = none) (input : Serializer) (state : State) (result : Ty) :
    NotBoundDecodes runtime server name input state result ↔
      result.Hollow ∧ 29 + name.length < 2 ^ 31 := by
  have exact := deserialize_exact runtime (RpcResponse result) (RpcResponse result).default
  rw [← length_notBoundImage]
  constructor
  · rintro ⟨_, detail, finished, answered, decoded, whole⟩
    rw [callImpl_unbound unbound] at answered
    cases answered
    have inside : Cursor.Inside positionLimit (⟨notBoundImage name, 0⟩ : Serializer) :=
      ⟨Nat.zero_le _, show 0 < positionLimit by decide⟩
    obtain ⟨image, ⟨encoded, -, range⟩, rfl⟩ := exact.sound _ _ _ inside decoded
    obtain ⟨-, rfl⟩ := (encodes_iff_valid runtime _ _ _ _).mp encoded
    rw [response_image] at range whole
    simp only [Cursor.advance_position, Nat.zero_add, List.length_append] at range whole
    have empty : result.image detail = [] := List.length_eq_zero_iff.mp (by omega)
    exact ⟨(hollow_iff result detail).mpr empty, Nat.lt_of_le_of_lt (Nat.le_add_right _ _) range⟩
  · rintro ⟨hollow, small⟩
    have image : (RpcResponse result).image
        (rpcResponse .functionNotFound (RpcServer.notBound name) result.default) =
          notBoundImage name := by
      rw [response_image, (hollow_iff result result.default).mp hollow, List.append_nil]
    have messageSmall : (stringImage (RpcServer.notBound name)).length < 2 ^ 31 := by
      rw [notBoundImage, List.length_append] at small
      omega
    have valid : (RpcResponse result).Valid runtime
        (rpcResponse .functionNotFound (RpcServer.notBound name) result.default) :=
      ⟨trivial, StringValid.of_small runtime messageSmall, valid_of_hollow runtime _ _ hollow,
        trivial⟩
    have decoded := exact.accepts ⟨notBoundImage name, 0⟩ _ (notBoundImage name)
      ⟨(encodes_iff_valid runtime _ _ _ _).mpr ⟨valid, image.symm⟩, ⟨[], (List.append_nil _).symm⟩,
        by rwa [Nat.zero_add]⟩
    exact ⟨_, _, _, callImpl_unbound unbound input state, decoded, Nat.zero_add _⟩

/-- A result type that takes no room: the reply is decodable. -/
theorem notBound_decodes_empty :
    NotBoundDecodes sixtyFourBit (RpcServer.initial : RpcServer Unit) (ascii "add") ⟨[], 0⟩ ()
      (.tuple []) :=
  (notBound_decodes_iff sixtyFourBit RpcServer.initial (ascii "add") rfl ⟨[], 0⟩ ()
    (.tuple [])).mpr ⟨trivial, by decide⟩

/-- A client that calls an unbound function for a number reads outside the reply. -/
theorem notBound_undecodable :
    ¬ NotBoundDecodes sixtyFourBit (RpcServer.initial : RpcServer Unit) (ascii "add") ⟨[], 0⟩ ()
      (.arithmetic .int32) := by
  rintro ⟨answered, detail, finished, called, decoded, -⟩
  cases called
  have outside : netCall sixtyFourBit (.arithmetic .int32) (notBoundImage (ascii "add")) =
      .error .outOfBounds := rfl
  exact absurd (outside.symm.trans decoded) (by simp)

end Luce
