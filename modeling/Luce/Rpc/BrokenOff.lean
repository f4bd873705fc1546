/-
This file decides when a call reports failure whose reply is broken off.

The reply is described by what the calls of `::read` hand out: its header fails for good, or
the stream ends or fails for good before the declared number of bytes has arrived. The bytes
that have arrived are decoded unless there are none behind a header.
-/

import Luce.Codec.RoundTrip
import Luce.Rpc.NetCall

namespace Luce

open Library.Binary Library.Stream Library.Fuel Library.LittleEndian

/-! ### What the reads hand out -/

/-- The reads of a header, of which this many bytes count as received and which is stored over
what `head_buffer` holds. -/
inductive HeaderRead : ClientFd → Nat → Bytes → Option Bytes → ClientFd → Prop
  | whole {clientFd : ClientFd} {headBuffer : Bytes} :
    HeaderRead clientFd headerSize headBuffer (some headBuffer) clientFd
  | fatal {clientFd next : ClientFd} {received : Nat} {headBuffer : Bytes} {errno : Errno}
    (more : received ≠ headerSize) (failed : clientFd.read headerSize = (.error errno, next))
    (forGood : errno.retryable = false) : HeaderRead clientFd received headBuffer none next
  | again {clientFd next last : ClientFd} {received : Nat} {headBuffer : Bytes} {errno : Errno}
    {header : Option Bytes} (more : received ≠ headerSize)
    (failed : clientFd.read headerSize = (.error errno, next))
    (forNow : errno.retryable = true) (rest : HeaderRead next received headBuffer header last) :
    HeaderRead clientFd received headBuffer header last
  | piece {clientFd next last : ClientFd} {received : Nat} {headBuffer bytes : Bytes}
    {header : Option Bytes} (more : received ≠ headerSize)
    (success : clientFd.read headerSize = (.ok bytes, next))
    (rest : HeaderRead next ((received + bytes.length) % 2 ^ 64) (store headBuffer 0 bytes) header
      last) :
    HeaderRead clientFd received headBuffer header last

/-- The reads of a body that is broken off with this many bytes missing, of which some still
arrive. -/
inductive BodyCut : ClientFd → Nat → Bytes → ClientFd → Prop
  | ended {clientFd next : ClientFd} {missing : Nat} (more : missing ≠ 0)
    (success : clientFd.read missing = (.ok [], next)) : BodyCut clientFd missing [] next
  | fatal {clientFd next : ClientFd} {missing : Nat} {errno : Errno} (more : missing ≠ 0)
    (failed : clientFd.read missing = (.error errno, next))
    (forGood : errno.retryable = false) : BodyCut clientFd missing [] next
  | again {clientFd next last : ClientFd} {missing : Nat} {errno : Errno} {arrived : Bytes}
    (more : missing ≠ 0) (failed : clientFd.read missing = (.error errno, next))
    (forNow : errno.retryable = true) (rest : BodyCut next missing arrived last) :
    BodyCut clientFd missing arrived last
  | piece {clientFd next last : ClientFd} {missing : Nat} {bytes arrived : Bytes}
    (more : missing ≠ 0) (success : clientFd.read missing = (.ok bytes, next)) (some : bytes ≠ [])
    (rest : BodyCut next (missing - bytes.length) arrived last) :
    BodyCut clientFd missing (bytes ++ arrived) last

/-- The reply is broken off in its header, or behind these bytes of its body. -/
inductive BrokenOff (clientFd : ClientFd) (headBuffer : Bytes) : Option Bytes → Prop
  | header {last : ClientFd} (failed : HeaderRead clientFd 0 headBuffer none last) :
    BrokenOff clientFd headBuffer none
  | body {next last : ClientFd} {header arrived : Bytes}
    (whole : HeaderRead clientFd 0 headBuffer (some header) next)
    (cut : BodyCut next (leValue header) arrived last) :
    BrokenOff clientFd headBuffer (some arrived)

theorem ClientFd.length_read_le {clientFd next : ClientFd} {len : Nat} {bytes : Bytes}
    (success : clientFd.read len = (.ok bytes, next)) : bytes.length ≤ len := by
  rw [ClientFd.read] at success
  split at success
  · cases success
  · cases attempt : clientFd.stream.read len with
    | mk result stream =>
      rw [attempt] at success
      cases success
      rw [(Source.read_ok attempt).1]
      exact (List.length_take_le _ _).trans (allowance_le _ _)

namespace BlockingRpcClient

/-! ### What ReadPacket returns -/

theorem readHead_of_read {clientFd last : ClientFd} {received : Nat} {headBuffer : Bytes}
    {header : Option Bytes} (reads : HeaderRead clientFd received headBuffer header last)
    (size : headBuffer.length = headerSize) :
    ∃ fuel, readHead fuel clientFd headBuffer received = .ok (header, last) := by
  induction reads with
  | whole => exact ⟨1, by rw [readHead, if_pos rfl]; rfl⟩
  | fatal more failed forGood =>
    exact ⟨1, by simp only [readHead, if_neg more, failed, forGood]; rfl⟩
  | again more failed forNow _ inductionHypothesis =>
    obtain ⟨fuel, ran⟩ := inductionHypothesis size
    exact ⟨fuel + 1, by simpa only [readHead, if_neg more, failed, forNow, if_true] using ran⟩
  | piece more success _ inductionHypothesis =>
    have limit := ClientFd.length_read_le success
    obtain ⟨fuel, ran⟩ := inductionHypothesis (by rw [length_store (by omega), size])
    refine ⟨fuel + 1, ?_⟩
    simp only [readHead, if_neg more, success]
    rwa [storeWithin_fits (by omega), ok_bind]

/-- The `resize` behind the loop drops what has not been filled. -/
theorem resize_front {buffer : Bytes} {already missing : Nat}
    (size : buffer.length = already + missing) :
    resize buffer already 0 = buffer.take already := by
  rw [resize, size, Nat.sub_eq_zero_of_le (Nat.le_add_right _ _), List.replicate_zero,
    List.append_nil]

theorem readBody_of_cut {clientFd last : ClientFd} {missing already : Nat}
    {arrived buffer : Bytes} (cut : BodyCut clientFd missing arrived last)
    (size : buffer.length = already + missing) :
    ∃ fuel, readBody fuel clientFd buffer missing already =
      .ok ⟨already + arrived.length, buffer.take already ++ arrived, last⟩ := by
  induction cut generalizing already buffer with
  | ended more success =>
    refine ⟨1, ?_⟩
    simp only [readBody, if_neg more, success, resize_front size, List.length_nil, Nat.add_zero,
      List.append_nil]
    rfl
  | fatal more failed forGood =>
    refine ⟨1, ?_⟩
    simp only [readBody, if_neg more, failed, forGood, resize_front size, List.length_nil,
      Nat.add_zero, List.append_nil, Bool.false_eq_true, if_false]
    rfl
  | again more failed forNow _ inductionHypothesis =>
    obtain ⟨fuel, ran⟩ := inductionHypothesis size
    exact ⟨fuel + 1, by simpa only [readBody, if_neg more, failed, forNow, if_true] using ran⟩
  | @piece _ _ _ missing bytes arrived more success some _ inductionHypothesis =>
    have limit := ClientFd.length_read_le success
    have room : already + bytes.length ≤ buffer.length := by omega
    obtain ⟨fuel, ran⟩ := inductionHypothesis
      (by rw [length_store room]; omega : (store buffer already bytes).length =
        already + bytes.length + (missing - bytes.length))
    refine ⟨fuel + 1, ?_⟩
    obtain ⟨first, others, rfl⟩ := List.exists_cons_of_ne_nil some
    simp only [readBody, if_neg more, success]
    rw [storeWithin_fits room, ok_bind, ran, take_store _ (by omega), List.length_append,
      List.append_assoc, Nat.add_assoc]

/-- For a header that could not be read `ReadPacket` returns the greatest size; otherwise it
returns what has arrived. -/
theorem returns_of_brokenOff {clientFd : ClientFd} {headBuffer : HeadBuffer}
    {arrival : Option Bytes} (broken : BrokenOff clientFd headBuffer.val arrival) :
    ∃ last, Returns clientFd ⟨[], headBuffer⟩
      (match arrival with
        | none => ⟨sizeMax, [], last⟩
        | some arrived => ⟨arrived.length, arrived, last⟩) := by
  cases broken with
  | @header last failed =>
    obtain ⟨fuel, ran⟩ := readHead_of_read failed headBuffer.property
    exact ⟨last, fuel, by rw [readPacket, ran, ok_bind]; rfl⟩
  | @body next last header arrived whole cut =>
    obtain ⟨fuelHead, ranHead⟩ := readHead_of_read whole headBuffer.property
    have size : (resize ([] : Bytes) (leValue header) 0).length = 0 + leValue header := by
      rw [length_resize, Nat.zero_add]
    obtain ⟨fuelBody, ranBody⟩ := readBody_of_cut cut size
    rw [List.take_zero, List.nil_append, Nat.zero_add] at ranBody
    have enoughHead :=
      (readHead_monotone _ _ _).ok_of_le (Nat.le_max_left fuelHead fuelBody) ranHead
    have enoughBody :=
      (readBody_monotone _ _ _ _).ok_of_le (Nat.le_max_right fuelHead fuelBody) ranBody
    refine ⟨last, max fuelHead fuelBody, ?_⟩
    rw [readPacket, enoughHead, ok_bind]
    exact enoughBody

/-! ### What the call reports -/

/-- `err_code`. -/
def responseCode {result : Ty} (value : (RpcResponse result).Val) : Nat :=
  @Arithmetic.load .uint16 value.1

/-- The bytes begin with a response whose code is not that of success. -/
def BeginsWithFailure (runtime : Runtime) (result : Ty) (bytes : Bytes) : Prop :=
  ∃ (value : (RpcResponse result).Val) (rest : Bytes),
    (RpcResponse result).Valid runtime value ∧
      bytes = (RpcResponse result).image value ++ rest ∧
      ((RpcResponse result).image value).length < positionLimit ∧ responseCode value ≠ 0

theorem netCall_eq_ok_iff (runtime : Runtime) (result : Ty) (bytes : Bytes)
    (value : (RpcResponse result).Val) :
    (∃ cursor, BlockingRpcClient.netCall runtime result bytes = .ok (value, cursor)) ↔
      (RpcResponse result).Valid runtime value ∧
        (∃ rest, bytes = (RpcResponse result).image value ++ rest) ∧
        ((RpcResponse result).image value).length < positionLimit := by
  have exact := deserialize_exact runtime (RpcResponse result) (RpcResponse result).default
  have inside : (⟨bytes, 0⟩ : Serializer).Inside positionLimit :=
    ⟨Nat.zero_le _, Nat.two_pow_pos 31⟩
  constructor
  · rintro ⟨cursor, read⟩
    obtain ⟨image, ⟨encodes, ⟨rest, starts⟩, range⟩, -⟩ := exact.sound _ _ _ inside read
    obtain ⟨valid, rfl⟩ := (encodes_iff_valid runtime _ _ value image).mp encodes
    exact ⟨valid, ⟨rest, starts⟩, by simpa using range⟩
  · rintro ⟨valid, ⟨rest, starts⟩, range⟩
    exact ⟨_, exact.accepts ⟨bytes, 0⟩ value _
      ⟨(encodes_iff_valid runtime _ _ value _).mpr ⟨valid, rfl⟩, ⟨rest, starts⟩, by simpa using range⟩⟩

theorem responseCode_timeout (result : Ty) : responseCode (timeout result) ≠ 0 := by
  have code : Arithmetic.load (Arithmetic.uint16.store RpcErrCode.recvTimeout.toNat) ≠ 0 := by
    decide
  exact code

/-- A response has room for its code. -/
theorem BeginsWithFailure.two_le {runtime : Runtime} {result : Ty} {bytes : Bytes}
    (begins : BeginsWithFailure runtime result bytes) : 2 ≤ bytes.length := by
  obtain ⟨value, rest, -, rfl, -⟩ := begins
  have code : value.1.val.length = 2 := value.1.property
  have image : (RpcResponse result).image value =
      value.1.val ++ Ty.images [.string, result] value.2 := rfl
  rw [image, List.append_assoc, List.length_append, code]
  exact Nat.le_add_right _ _

namespace Client

/-- The call returns a response whose code is not that of success. -/
def Reports (runtime : Runtime) (client : Client) (result : Ty) (request : Bytes)
    (headBuffer : HeadBuffer) : Prop :=
  ∃ fuel value next, client.netCall fuel runtime result request headBuffer = .ok (value, next) ∧
    responseCode value ≠ 0

variable {runtime : Runtime} {client sent : Client} {result : Ty} {request : Bytes}
  {headBuffer : HeadBuffer}

theorem reports_of_returns {reply : ReadResult} (written : client.send request = .ok sent)
    (returns : Returns sent.incoming ⟨[], headBuffer⟩ reply) :
    client.Reports runtime result request headBuffer ↔
      reply.size = 0 ∨ BeginsWithFailure runtime result reply.buffer := by
  have concluded : client.Reports runtime result request headBuffer ↔
      ∃ value next, sent.conclude runtime result reply = .ok (value, next) ∧
        responseCode value ≠ 0 := by
    simp only [Reports, netCall_of_send written]
    constructor
    · rintro ⟨fuel, value, next, ran, failure⟩
      obtain ⟨again, returnsAgain, concluded⟩ := receive_eq_ok_iff.mp ⟨fuel, ran⟩
      cases returns.unique returnsAgain
      exact ⟨value, next, concluded, failure⟩
    · rintro ⟨value, next, concluded, failure⟩
      obtain ⟨fuel, ran⟩ := receive_eq_ok_iff.mpr ⟨reply, returns, concluded⟩
      exact ⟨fuel, value, next, ran, failure⟩
  rw [concluded]
  by_cases nothing : reply.size = 0
  · exact iff_of_true ⟨_, _, if_pos nothing, responseCode_timeout result⟩ (.inl nothing)
  · simp only [conclude, nothing, false_or]
    constructor
    · rintro ⟨value, next, concluded, failure⟩
      cases read : BlockingRpcClient.netCall runtime result reply.buffer with
      | error fault =>
        rw [read] at concluded
        cases concluded
      | ok outcome =>
        rw [read] at concluded
        cases concluded
        obtain ⟨valid, ⟨rest, starts⟩, range⟩ :=
          (netCall_eq_ok_iff runtime result reply.buffer outcome.1).mp ⟨outcome.2, read⟩
        exact ⟨outcome.1, rest, valid, starts, range, failure⟩
    · rintro ⟨value, rest, valid, starts, range, failure⟩
      obtain ⟨cursor, read⟩ :=
        (netCall_eq_ok_iff runtime result reply.buffer value).mpr ⟨valid, ⟨rest, starts⟩, range⟩
      rw [read]
      exact ⟨value, _, rfl, failure⟩

/-- A call whose reply is broken off reports failure exactly when its header was read, and what
has arrived of its body is nothing, or begins with a response that reports failure. -/
theorem reports_iff (runtime : Runtime) (client sent : Client) (result : Ty) (request : Bytes)
    (headBuffer : HeadBuffer) (arrival : Option Bytes) (written : client.send request = .ok sent)
    (broken : BrokenOff sent.incoming headBuffer.val arrival) :
    client.Reports runtime result request headBuffer ↔
      ∃ arrived, arrival = some arrived ∧
        (arrived = [] ∨ BeginsWithFailure runtime result arrived) := by
  obtain ⟨last, returns⟩ := returns_of_brokenOff broken
  rw [reports_of_returns written returns]
  cases arrival with
  | none =>
    have large : sizeMax ≠ 0 := by decide
    have short : ¬ BeginsWithFailure runtime result [] := fun begins => nomatch begins.two_le
    exact iff_of_false (not_or.mpr ⟨large, short⟩) nofun
  | some arrived => simp

/-- A client whose connection hands out these bytes and then ends. -/
def facing (bytes : Bytes) (deliveries : List (Delivery Errno)) : Client :=
  ⟨0, ⟨[], []⟩, ⟨⟨bytes, deliveries⟩, true⟩⟩

/-- The header of the empty request is written. -/
theorem facing_sends (bytes : Bytes) (deliveries : List (Delivery Errno)) :
    (facing bytes deliveries).send [] =
      .ok { facing bytes deliveries with outgoing := ⟨[0, 0, 0, 0], []⟩ } := by
  have wrote : writePacket ⟨[], []⟩ [] = (0, ⟨[0, 0, 0, 0], []⟩) := by
    rw [writePacket]
    simp only [Sink.write, List.length_nil]
    exact writeBody.eq_1 _ _ _ _
  have ready : (0 : Int) ≠ RpcErrCode.recvTimeout.toNat := by decide
  simp only [send, facing, if_neg ready, wrote, List.length_nil, if_true]
  rfl

/-- A header that declares five bytes, in one piece. -/
theorem headerRead_five (rest : Bytes) :
    HeaderRead (facing ([5, 0, 0, 0] ++ rest) []).incoming 0 zeroed.val (some [5, 0, 0, 0])
      (facing rest []).incoming :=
  .piece (show 0 ≠ headerSize by decide) rfl .whole

/-- The server closes its end behind a header. -/
theorem reports_header :
    (facing ([5, 0, 0, 0] ++ []) []).Reports sixtyFourBit (.tuple []) [] zeroed := by
  have cut : BodyCut (facing [] []).incoming (leValue [5, 0, 0, 0]) [] (facing [] []).incoming :=
    .ended (by decide) rfl
  exact (reports_iff sixtyFourBit (facing ([5, 0, 0, 0] ++ []) []) _ (.tuple []) [] zeroed
    (some []) (facing_sends _ _) (.body (headerRead_five []) cut)).mpr ⟨[], rfl, .inl rfl⟩

/-- The connection is reset in front of the reply, and the empty buffer is decoded; and the
server closes its end behind one byte of five. -/
theorem not_reports :
    (BrokenOff (facing [] [.fail (.other 104)]).incoming zeroed.val none ∧
      ¬ (facing [] [.fail (.other 104)]).Reports sixtyFourBit (.tuple []) [] zeroed) ∧
    (BrokenOff (facing ([5, 0, 0, 0] ++ [2]) []).incoming zeroed.val (some [2]) ∧
      ¬ (facing ([5, 0, 0, 0] ++ [2]) []).Reports sixtyFourBit (.tuple []) [] zeroed) := by
  constructor
  · have reset : BrokenOff (facing [] [.fail (.other 104)]).incoming zeroed.val none :=
      .header (.fatal (show 0 ≠ headerSize by decide) rfl rfl)
    refine ⟨reset, fun reports => ?_⟩
    obtain ⟨last, returns⟩ := returns_of_brokenOff reset
    obtain nothing | begins := (reports_of_returns (facing_sends _ _) returns).mp reports
    · cases nothing
    · cases begins.two_le
  · have cut : BodyCut (facing [2] []).incoming (leValue [5, 0, 0, 0]) ([2] ++ [])
        (facing [] []).incoming :=
      .piece (by decide) rfl (List.cons_ne_nil _ _) (.ended (by decide) rfl)
    have closed : BrokenOff (facing ([5, 0, 0, 0] ++ [2]) []).incoming zeroed.val (some [2]) :=
      .body (headerRead_five [2]) cut
    refine ⟨closed, fun reports => ?_⟩
    obtain ⟨last, returns⟩ := returns_of_brokenOff closed
    obtain nothing | begins := (reports_of_returns (facing_sends _ _) returns).mp reports
    · cases nothing
    · cases begins.two_le with
      | step less => cases less

end Client

end BlockingRpcClient

end Luce
