/-
This file models clients that call a server, with everything that lies between them.

Each client has a connection of its own: a stream of bytes in each direction, and a coroutine
`OnRequest` at its end. A step is one call of `::read` or `::write` that moves some bytes, or
what a thread does between two of them; the steps of all clients and all coroutines come in
whatever order. A call that fails for the moment moves nothing and is made again, so it is no
step.

`AcceptLoop` commits each connection to `work_thread_pool_`, so until a coroutine first waits it
may run beside others. That a function that is bound runs in one step is assumed of the
functions: those that share something have to see to it that no other one comes between.
-/

import Luce.Library.Serving
import Luce.Rpc.NetCall
import Luce.Rpc.Transfer

namespace Luce

open Library.Transition Library.Framing Library.LittleEndian Library.Serving

/-! ### Connections -/

/-- What a thread of a client or a coroutine of the server is doing. -/
inductive PeerPhase where
  /-- It is between two calls. -/
  | idle
  | writing (writer : PacketWriter)
  | reading (reader : PacketReader)
  /-- A request could not be decoded. -/
  | crashed
deriving DecidableEq, Repr

/-- The next call of `::read` or `::write` may move the whole header, if it is for one. -/
def PeerPhase.Whole (count : Nat) : PeerPhase → Prop
  | .writing writer => writer.Whole count
  | .reading reader => reader.Whole count
  | .idle | .crashed => True

instance (count : Nat) (phase : PeerPhase) : Decidable (phase.Whole count) :=
  match phase with
  | .writing writer => inferInstanceAs (Decidable (writer.Whole count))
  | .reading reader => inferInstanceAs (Decidable (reader.Whole count))
  | .idle | .crashed => isTrue trivial

/-- A connection with both of its ends. -/
structure Link where
  errCode : Int
  /-- The calls that the client still has to make. -/
  requests : List Bytes
  /-- The packets that its calls have received. -/
  replies : List Bytes
  client : PeerPhase
  toServer : Bytes
  toClient : Bytes
  server : PeerPhase
deriving DecidableEq, Repr

inductive LinkStep where
  /-- A call of `::read` or `::write` moves at most so many bytes. -/
  | clientMoves (count : Nat)
  | serverMoves (count : Nat)
  /-- The client does what comes between two such calls. A new `head_buffer` may hold
  anything. -/
  | clientGoes (headBuffer : HeadBuffer)
  | serverGoes (headBuffer : HeadBuffer)
deriving DecidableEq, Repr

namespace Link

/-- A call of the client moves bytes. -/
def clientMoves (link : Link) (count : Nat) : Option Link :=
  match link.client with
  | .writing writer => (writer.write count).map fun moved =>
      { link with client := .writing moved.2, toServer := link.toServer ++ moved.1 }
  | .reading reader => (reader.read count link.toClient).map fun moved =>
      { link with client := .reading moved.1, toClient := moved.2 }
  | .idle | .crashed => none

/-- A call of the coroutine moves bytes. -/
def serverMoves (link : Link) (count : Nat) : Option Link :=
  match link.server with
  | .writing writer => (writer.write count).map fun moved =>
      { link with server := .writing moved.2, toClient := link.toClient ++ moved.1 }
  | .reading reader => (reader.asyncRead count link.toServer).map fun moved =>
      { link with server := .reading moved.1, toServer := moved.2 }
  | .idle | .crashed => none

/-- `NetCall` begins, turns from writing to reading, or ends with the packet it has read. -/
def clientGoes (link : Link) (headBuffer : HeadBuffer) : Option Link :=
  match link.client with
  | .idle =>
    match link.requests with
    | [] => none
    | request :: requests =>
      some { link with
        requests
        client :=
          if link.errCode = RpcErrCode.recvTimeout.toNat then .reading (.fresh headBuffer)
          else .writing (.head request request.length) }
  | .writing (.body _ 0 _) => some { link with client := .reading (.fresh headBuffer) }
  | .reading (.body buffer 0 alreadyReadSize) =>
    some { link with
      errCode :=
        if alreadyReadSize = 0 then RpcErrCode.recvTimeout.toNat else RpcErrCode.success.toNat
      replies := link.replies ++ [resize buffer alreadyReadSize 0]
      client := .idle }
  | _ => none

/-- The loop of `OnRequest` answers the packet it has read, or begins again. -/
def serverGoes {State : Type} (answer : Bytes → State → Option (Bytes × State)) (link : Link)
    (headBuffer : HeadBuffer) (state : State) : Option (Link × State) :=
  match link.server with
  | .reading (.body buffer 0 _) =>
    match answer buffer state with
    | some (reply, state) =>
      some ({ link with server := .writing (.head reply (reply.length % 2 ^ 32)) }, state)
    | none => some ({ link with server := .crashed }, state)
  | .writing (.body _ 0 _) => some ({ link with server := .reading (.fresh headBuffer) }, state)
  | _ => none

def step {State : Type} (answer : Bytes → State → Option (Bytes × State)) (link : Link)
    (state : State) : LinkStep → Option (Link × State)
  | .clientMoves count => (link.clientMoves count).map fun link => (link, state)
  | .serverMoves count => (link.serverMoves count).map fun link => (link, state)
  | .clientGoes headBuffer => (link.clientGoes headBuffer).map fun link => (link, state)
  | .serverGoes headBuffer => link.serverGoes answer headBuffer state

/-- The loop of `OnRequest` answers a packet in this step. -/
def handles (link : Link) : LinkStep → Bool
  | .serverGoes _ =>
    match link.server with
    | .reading (.body _ 0 _) => true
    | _ => false
  | .clientMoves _ | .serverMoves _ | .clientGoes _ => false

/-- A client that has just been connected, with the calls it is going to make. The constructor
leaves `err_code_` as it finds it. -/
def connected (errCode : Int) (requests : List Bytes) (headBuffer : HeadBuffer) : Link :=
  ⟨errCode, requests, [], .idle, [], [], .reading (.fresh headBuffer)⟩

/-- The step moves whole headers. -/
def HeadersWhole (link : Link) : LinkStep → Prop
  | .clientMoves count => link.client.Whole count
  | .serverMoves count => link.server.Whole count
  | .clientGoes _ | .serverGoes _ => True

instance (link : Link) (label : LinkStep) : Decidable (link.HeadersWhole label) :=
  match label with
  | .clientMoves count => inferInstanceAs (Decidable (link.client.Whole count))
  | .serverMoves count => inferInstanceAs (Decidable (link.server.Whole count))
  | .clientGoes _ | .serverGoes _ => isTrue trivial

end Link

/-! ### The network -/

/-- All connections, and the state that the bound functions work on. -/
structure Network (State : Type) (Client : Type) where
  state : State
  links : Client → Link

namespace Network

variable {State Client : Type} [DecidableEq Client]

def step (answer : Bytes → State → Option (Bytes × State)) (network : Network State Client)
    (label : Client × LinkStep) : Option (Network State Client) :=
  ((network.links label.1).step answer network.state label.2).map fun moved =>
    ⟨moved.2, Function.update network.links label.1 moved.1⟩

/-- The client whose request is answered in this step, if one is. -/
def handled (network : Network State Client) (label : Client × LinkStep) : List Client :=
  if (network.links label.1).handles label.2 then [label.1] else []

/-- The clients whose requests are answered along a run, in the order in which they are. -/
def order (answer : Bytes → State → Option (Bytes × State)) (network : Network State Client)
    (labels : List (Client × LinkStep)) : List Client :=
  observed (step answer) handled network labels

/-- Where so many requests of each client have been answered, they are those of all its calls that
have returned, and of none that has not begun. -/
def Between (requests : Client → List Bytes) (answered : List Client)
    (network : Network State Client) : Prop :=
  ∀ client, (network.links client).replies.length ≤ answered.count client ∧
    answered.count client + (network.links client).requests.length ≤ (requests client).length

/-- The step moves whole headers. -/
def HeadersWhole (network : Network State Client) (label : Client × LinkStep) : Prop :=
  (network.links label.1).HeadersWhole label.2

instance (network : Network State Client) (label : Client × LinkStep) :
    Decidable (network.HeadersWhole label) :=
  inferInstanceAs (Decidable ((network.links label.1).HeadersWhole label.2))

end Network

/-! ### Where a call is -/

/-- The end has this packet on its way: it writes this much more of it, or has written it and is
in front of the next packet it reads. -/
inductive PeerPhase.Sends (payload : Bytes) : PeerPhase → Bytes → Prop
  | writing {writer : PacketWriter} (fits : writer.Fits payload) :
    Sends payload (.writing writer) writer.unsent
  | sent (headBuffer : HeadBuffer) : Sends payload (.reading (.fresh headBuffer)) []

theorem PeerPhase.Sends.unsent_cases {payload unsent : Bytes} {phase : PeerPhase}
    (sends : phase.Sends payload unsent) :
    unsent = frame headerSize payload ∨ unsent.length ≤ payload.length := by
  cases sends with
  | writing fits => exact fits.unsent_cases
  | sent => exact .inr (Nat.zero_le _)

/-- The end waits for this packet, of which this much is to come. It may not have turned from
writing to reading yet. -/
inductive PeerPhase.Awaits (payload : Bytes) : PeerPhase → Bytes → Prop
  | reading {reader : PacketReader} {rest : Bytes} (reads : reader.Reads payload rest) :
    Awaits payload (.reading reader) rest
  | lagging (buffer : Bytes) (already : Nat) :
    Awaits payload (.writing (.body buffer 0 already)) (frame headerSize payload)

/-- An end that has sent its packet waits for any other one. -/
theorem PeerPhase.Sends.awaits {payload : Bytes} {phase : PeerPhase}
    (sends : phase.Sends payload []) (next : Bytes) :
    phase.Awaits next (frame headerSize next) := by
  generalize nothing : [] = unsent at sends
  cases sends with
  | writing fits =>
    obtain ⟨already, rfl⟩ := fits.body_of_unsent nothing.symm
    exact .lagging payload already
  | sent headBuffer => exact .reading (.head headBuffer)

/-- An end that has written its packet turns to reading. -/
theorem PeerPhase.Awaits.turn {payload buffer rest : Bytes} {already : Nat}
    (awaits : (PeerPhase.writing (.body buffer 0 already)).Awaits payload rest)
    (headBuffer : HeadBuffer) :
    (PeerPhase.reading (.fresh headBuffer)).Awaits payload rest := by
  cases awaits with
  | lagging => exact .reading (.head headBuffer)

/-- An end that waits for a packet does not write any more. -/
theorem PeerPhase.Awaits.write_eq_none {payload rest : Bytes} {writer : PacketWriter}
    (awaits : (PeerPhase.writing writer).Awaits payload rest) (count : Nat) :
    writer.write count = none := by
  cases awaits with
  | lagging => exact if_pos (.inr rfl)

namespace Link

/-- How far the call of a client is, with the requests that have not been answered and the
replies that have been given on this connection. -/
inductive Stage (link : Link) : List Bytes → List Bytes → Prop
  | idle (last : Bytes) (client : link.client = .idle) (server : link.server.Sends last [])
    (toServer : link.toServer = []) (toClient : link.toClient = []) :
    Stage link link.requests link.replies
  | requesting {request unsent : Bytes} (client : link.client.Sends request unsent)
    (server : link.server.Awaits request (link.toServer ++ unsent))
    (toClient : link.toClient = []) : Stage link (request :: link.requests) link.replies
  | replying {reply unsent : Bytes} (server : link.server.Sends reply unsent)
    (client : link.client.Awaits reply (link.toClient ++ unsent))
    (toServer : link.toServer = []) (some : reply ≠ []) (small : reply.length < 2 ^ 32) :
    Stage link link.requests (link.replies ++ [reply])

/-- What an end still has to write. -/
def unsent : PeerPhase → Bytes
  | .writing writer => writer.unsent
  | .idle | .reading _ | .crashed => []

/-- How often an end still has to turn to something else. -/
def turns : PeerPhase → Nat
  | .writing _ => 2
  | .reading _ => 1
  | .idle | .crashed => 0

/-- How far the bytes and the threads still have to go. A byte has to be written and read. -/
def work (link : Link) : Nat :=
  2 * ((unsent link.client).length + (unsent link.server).length) +
    (link.toServer.length + link.toClient.length) + (turns link.client + turns link.server)

/-- A call has begun, or something is nearer to where it has to go. -/
def Nearer (link next : Link) : Prop :=
  next.requests.length < link.requests.length ∨
    next.requests = link.requests ∧ next.work < link.work

/-! ### What a step does to a call -/

variable {link next : Link} {requests replies : List Bytes} {count : Nat} {headBuffer : HeadBuffer}

theorem resize_self (buffer : Bytes) : resize buffer buffer.length 0 = buffer := by
  rw [resize, Nat.sub_self, List.replicate_zero, List.append_nil, List.take_length]

/-- A reader that has read something had its header there. -/
theorem stream_ne_nil {stream rest : Bytes} {reader after : PacketReader}
    (read : reader.read count stream = some (after, rest)) : stream ≠ [] := by
  rintro rfl
  cases reader with
  | head => cases (if_pos (.inr rfl)).symm.trans read
  | body => cases (if_pos (.inr (.inl rfl))).symm.trans read

theorem stream_ne_nil_async {stream rest : Bytes} {reader after : PacketReader}
    (read : reader.asyncRead count stream = some (after, rest)) : stream ≠ [] := by
  rintro rfl
  cases reader with
  | head => cases (if_pos (.inr rfl)).symm.trans read
  | body => cases (if_pos (.inr (.inl rfl))).symm.trans read

/-- An end that waits for a packet and is at the end of a body has the packet. -/
theorem awaits_body {payload buffer rest : Bytes} {already : Nat}
    (awaits : (PeerPhase.reading (.body buffer 0 already)).Awaits payload rest) :
    buffer = payload ∧ already = payload.length ∧ rest = [] := by
  cases awaits with
  | reading reads => exact reads.payload_eq

/-- What a call of the client or of the coroutine can have moved. -/
theorem clientMoves_cases (moved : link.clientMoves count = some next) :
    (∃ writer bytes after, link.client = .writing writer ∧
        writer.write count = some (bytes, after) ∧
        next = { link with client := .writing after, toServer := link.toServer ++ bytes }) ∨
      ∃ reader after rest, link.client = .reading reader ∧
        reader.read count link.toClient = some (after, rest) ∧
        next = { link with client := .reading after, toClient := rest } := by
  unfold Link.clientMoves at moved
  split at moved
  case h_1 writer client =>
    obtain ⟨⟨bytes, after⟩, wrote, rfl⟩ := Option.map_eq_some_iff.mp moved
    exact .inl ⟨writer, bytes, after, client, wrote, rfl⟩
  case h_2 reader client =>
    obtain ⟨⟨after, rest⟩, read, rfl⟩ := Option.map_eq_some_iff.mp moved
    exact .inr ⟨reader, after, rest, client, read, rfl⟩
  case h_3 => cases moved
  case h_4 => cases moved

theorem serverMoves_cases (moved : link.serverMoves count = some next) :
    (∃ writer bytes after, link.server = .writing writer ∧
        writer.write count = some (bytes, after) ∧
        next = { link with server := .writing after, toClient := link.toClient ++ bytes }) ∨
      ∃ reader after rest, link.server = .reading reader ∧
        reader.asyncRead count link.toServer = some (after, rest) ∧
        next = { link with server := .reading after, toServer := rest } := by
  unfold Link.serverMoves at moved
  split at moved
  case h_1 writer server =>
    obtain ⟨⟨bytes, after⟩, wrote, rfl⟩ := Option.map_eq_some_iff.mp moved
    exact .inl ⟨writer, bytes, after, server, wrote, rfl⟩
  case h_2 reader server =>
    obtain ⟨⟨after, rest⟩, read, rfl⟩ := Option.map_eq_some_iff.mp moved
    exact .inr ⟨reader, after, rest, server, read, rfl⟩
  case h_3 => cases moved
  case h_4 => cases moved

/-- An end that writes writes its packet. -/
theorem sends_writing {payload unsent : Bytes} {writer : PacketWriter}
    (sends : (PeerPhase.writing writer).Sends payload unsent) :
    writer.Fits payload ∧ unsent = writer.unsent := by
  cases sends with
  | writing fits => exact ⟨fits, rfl⟩

/-- An end that reads has written its packet. -/
theorem sends_reading {payload unsent : Bytes} {reader : PacketReader}
    (sends : (PeerPhase.reading reader).Sends payload unsent) :
    unsent = [] ∧ ∃ headBuffer, reader = .fresh headBuffer := by
  cases sends with
  | sent headBuffer => exact ⟨rfl, headBuffer, rfl⟩

/-- A call of `::write` takes some bytes nearer to their reader. -/
theorem work_write {writer after : PacketWriter} {bytes : Bytes}
    (front : bytes ++ after.unsent = writer.unsent) (some : bytes ≠ []) :
    2 * after.unsent.length + bytes.length < 2 * writer.unsent.length := by
  have length : bytes.length ≠ 0 := fun zero => some (List.length_eq_zero_iff.mp zero)
  rw [← front, List.length_append]
  omega

/-- What the client writes or reads does not change how far its call is. -/
theorem Stage.clientMoves (stage : link.Stage requests replies) (whole : link.client.Whole count)
    (moved : link.clientMoves count = some next) :
    next.Stage requests replies ∧ link.Nearer next := by
  obtain ⟨writer, bytes, after, phase, wrote, rfl⟩ | ⟨reader, after, rest, phase, read, rfl⟩ :=
    clientMoves_cases moved
  · rw [phase] at whole
    cases stage with
    | idle last client => rw [phase] at client; cases client
    | requesting client server toClient =>
      rw [phase] at client
      obtain ⟨fits, rfl⟩ := sends_writing client
      obtain ⟨front, some, fitsNext⟩ := PacketWriter.write_unsent fits whole wrote
      have nearer := work_write front some
      rw [← front, ← List.append_assoc] at server
      refine ⟨.requesting (.writing fitsNext) server toClient, .inr ⟨rfl, ?_⟩⟩
      simp only [work, phase, unsent, turns, List.length_append]
      omega
    | replying server client =>
      rw [phase] at client
      cases (client.write_eq_none count).symm.trans wrote
  · rw [phase] at whole
    cases stage with
    | idle last client => rw [phase] at client; cases client
    | requesting client server toClient => exact absurd toClient (stream_ne_nil read)
    | replying server client toServer some small =>
      rw [phase] at client
      cases client with
      | reading reads =>
        have present := reads.present server.unsent_cases (stream_ne_nil read)
        obtain ⟨readsNext, fewer⟩ := PacketReader.read_reads small reads whole present read
        refine ⟨.replying server (.reading readsNext) toServer some small, .inr ⟨rfl, ?_⟩⟩
        simp only [work, phase, unsent, turns]
        omega

/-- What the coroutine writes or reads does not change how far the call is. -/
theorem Stage.serverMoves (stage : link.Stage requests replies)
    (fit : ∀ request ∈ requests, request.length < 2 ^ 32) (whole : link.server.Whole count)
    (moved : link.serverMoves count = some next) :
    next.Stage requests replies ∧ link.Nearer next := by
  obtain ⟨writer, bytes, after, phase, wrote, rfl⟩ | ⟨reader, after, rest, phase, read, rfl⟩ :=
    serverMoves_cases moved
  · rw [phase] at whole
    cases stage with
    | idle last client server =>
      -- a packet that has been sent is not written any more
      rw [phase] at server
      obtain ⟨fits, nothing⟩ := sends_writing server
      obtain ⟨front, some, -⟩ := PacketWriter.write_unsent fits whole wrote
      rw [← nothing] at front
      exact absurd (List.append_eq_nil_iff.mp front).1 some
    | requesting client server toClient =>
      rw [phase] at server
      cases (server.write_eq_none count).symm.trans wrote
    | replying server client toServer some small =>
      rw [phase] at server
      obtain ⟨fits, rfl⟩ := sends_writing server
      obtain ⟨front, positive, fitsNext⟩ := PacketWriter.write_unsent fits whole wrote
      have nearer := work_write front positive
      rw [← front, ← List.append_assoc] at client
      refine ⟨.replying (.writing fitsNext) client toServer some small, .inr ⟨rfl, ?_⟩⟩
      simp only [work, phase, unsent, turns, List.length_append]
      omega
  · rw [phase] at whole
    cases stage with
    | idle last client server toServer => exact absurd toServer (stream_ne_nil_async read)
    | replying server client toServer => exact absurd toServer (stream_ne_nil_async read)
    | requesting client server toClient =>
      rw [phase] at server
      cases server with
      | reading reads =>
        have present := reads.present client.unsent_cases (stream_ne_nil_async read)
        obtain ⟨readsNext, fewer⟩ := PacketReader.asyncRead_reads (fit _ List.mem_cons_self)
          reads whole present read
        refine ⟨.requesting client (.reading readsNext) toClient, .inr ⟨rfl, ?_⟩⟩
        simp only [work, phase, unsent, turns]
        omega

/-- What the client can have done between two calls. -/
theorem clientGoes_cases (moved : link.clientGoes headBuffer = some next) :
    (link.client = .idle ∧ ∃ request others, link.requests = request :: others ∧
        next = { link with
          requests := others
          client :=
            if link.errCode = RpcErrCode.recvTimeout.toNat then .reading (.fresh headBuffer)
            else .writing (.head request request.length) }) ∨
      (∃ buffer already, link.client = .writing (.body buffer 0 already) ∧
        next = { link with client := .reading (.fresh headBuffer) }) ∨
      ∃ buffer already, link.client = .reading (.body buffer 0 already) ∧
        next = { link with
          errCode :=
            if already = 0 then RpcErrCode.recvTimeout.toNat else RpcErrCode.success.toNat
          replies := link.replies ++ [resize buffer already 0]
          client := .idle } := by
  unfold Link.clientGoes at moved
  split at moved
  case h_1 client =>
    split at moved <;> cases moved
    case h_2 request others calls => exact .inl ⟨client, request, others, calls, rfl⟩
  case h_2 buffer already client =>
    cases moved
    exact .inr (.inl ⟨buffer, already, client, rfl⟩)
  case h_3 buffer already client =>
    cases moved
    exact .inr (.inr ⟨buffer, already, client, rfl⟩)
  case h_4 => cases moved

/-- A client that turns from writing to reading has come nearer. -/
theorem nearer_turn {buffer : Bytes} {already : Nat}
    (phase : link.client = .writing (.body buffer 0 already)) :
    link.Nearer { link with client := .reading (.fresh headBuffer) } := by
  refine .inr ⟨rfl, ?_⟩
  simp only [work, phase, unsent, turns, PacketWriter.unsent_body_zero, List.length_nil]
  omega

/-- What the client does between two calls of `::write` or `::read` does not change how far its
call is; and a call does not end with a timeout. -/
theorem Stage.clientGoes (stage : link.Stage requests replies)
    (ready : link.errCode ≠ RpcErrCode.recvTimeout.toNat)
    (moved : link.clientGoes headBuffer = some next) :
    next.Stage requests replies ∧ next.errCode ≠ RpcErrCode.recvTimeout.toNat ∧
      link.Nearer next := by
  obtain ⟨phase, request, others, calls, rfl⟩ | ⟨buffer, already, phase, rfl⟩ |
    ⟨buffer, already, phase, rfl⟩ := clientGoes_cases moved
  · cases stage with
    | requesting client => rw [phase] at client; cases client
    | replying server client => rw [phase] at client; cases client
    | idle last client server toServer toClient =>
      have fewer : others.length < link.requests.length := calls ▸ Nat.lt_succ_self _
      rw [if_neg ready, calls]
      refine ⟨.requesting (.writing PacketWriter.fits_head) ?_ toClient, ready, .inl fewer⟩
      change link.server.Awaits request (link.toServer ++ _)
      rw [toServer]
      exact server.awaits request
  · cases stage with
    | idle last client => rw [phase] at client; cases client
    | requesting client server toClient =>
      rw [phase] at client
      obtain ⟨-, rfl⟩ := sends_writing client
      exact ⟨.requesting (.sent headBuffer) server toClient, ready, nearer_turn phase⟩
    | replying server client toServer some small =>
      rw [phase] at client
      exact ⟨.replying server (client.turn headBuffer) toServer some small, ready,
        nearer_turn phase⟩
  · cases stage with
    | idle last client => rw [phase] at client; cases client
    | requesting client =>
      rw [phase] at client
      obtain ⟨-, _, reader⟩ := sends_reading client
      cases reader
    | replying server client toServer some small =>
      rw [phase] at client
      obtain ⟨rfl, rfl, nothing⟩ := awaits_body client
      obtain ⟨toClient, rfl⟩ := List.append_eq_nil_iff.mp nothing
      have length : buffer.length ≠ 0 := fun zero => some (List.length_eq_zero_iff.mp zero)
      rw [resize_self, if_neg length]
      have differs : (RpcErrCode.success.toNat : Int) ≠ RpcErrCode.recvTimeout.toNat := by decide
      refine ⟨.idle _ rfl server toServer toClient, differs, .inr ⟨rfl, ?_⟩⟩
      simp only [work, phase, unsent, turns]
      omega

/-- What the coroutine can have done between two calls. -/
theorem serverGoes_cases {State : Type} {answer : Bytes → State → Option (Bytes × State)}
    {state nextState : State}
    (moved : link.serverGoes answer headBuffer state = some (next, nextState)) :
    (∃ buffer already, link.server = .reading (.body buffer 0 already) ∧
      ((∃ reply, answer buffer state = some (reply, nextState) ∧
        next = { link with server := .writing (.head reply (reply.length % 2 ^ 32)) }) ∨
      answer buffer state = none ∧ nextState = state ∧ next = { link with server := .crashed })) ∨
    ∃ buffer already, link.server = .writing (.body buffer 0 already) ∧ nextState = state ∧
      next = { link with server := .reading (.fresh headBuffer) } := by
  unfold Link.serverGoes at moved
  split at moved
  case h_1 buffer already server =>
    refine .inl ⟨buffer, already, server, ?_⟩
    cases answered : answer buffer state with
    | none =>
      rw [answered] at moved
      cases moved
      exact .inr ⟨rfl, rfl, rfl⟩
    | some outcome =>
      rw [answered] at moved
      cases moved
      exact .inl ⟨outcome.1, rfl, rfl⟩
  case h_2 buffer already server =>
    cases moved
    exact .inr ⟨buffer, already, server, rfl, rfl⟩
  case h_3 => cases moved

/-- What may be asked of a service: each such request has an answer, which is some packet. -/
def Answers {State : Type} (answer : Bytes → State → Option (Bytes × State)) (request : Bytes) :
    Prop :=
  request.length < 2 ^ 32 ∧ ∀ state, ∃ reply next, answer request state = some (reply, next) ∧
    reply ≠ [] ∧ reply.length < 2 ^ 32

/-- What the coroutine does between two calls is nothing to the client, or it is the answer to the
client's request. -/
theorem Stage.serverGoes {State : Type} {answer : Bytes → State → Option (Bytes × State)}
    {state nextState : State} (stage : link.Stage requests replies)
    (good : ∀ request ∈ requests, Answers answer request)
    (moved : link.serverGoes answer headBuffer state = some (next, nextState)) :
    (next.Stage requests replies ∧ nextState = state ∧ link.Nearer next ∧
        link.handles (.serverGoes headBuffer) = false) ∨
      ∃ request others reply, requests = request :: others ∧
        answer request state = some (reply, nextState) ∧
        next.Stage others (replies ++ [reply]) ∧ next.requests = link.requests ∧
        link.handles (.serverGoes headBuffer) = true := by
  obtain ⟨buffer, already, phase, answered⟩ | ⟨buffer, already, phase, rfl, rfl⟩ :=
    serverGoes_cases moved
  · cases stage with
    | idle last client server =>
      rw [phase] at server
      obtain ⟨-, _, reader⟩ := sends_reading server
      cases reader
    | replying server =>
      rw [phase] at server
      obtain ⟨-, _, reader⟩ := sends_reading server
      cases reader
    | requesting client server toClient =>
      rw [phase] at server
      obtain ⟨rfl, rfl, nothing⟩ := awaits_body server
      obtain ⟨toServer, rfl⟩ := List.append_eq_nil_iff.mp nothing
      obtain ⟨reply, after, replied, some, small⟩ := (good _ List.mem_cons_self).2 state
      rw [replied] at answered
      obtain ⟨_, same, rfl⟩ | ⟨impossible, -⟩ := answered
      · cases same
        refine .inr ⟨buffer, link.requests, reply, rfl, replied, ?_⟩
        rw [Nat.mod_eq_of_lt small]
        refine ⟨.replying (.writing PacketWriter.fits_head) ?_ toServer some small, rfl,
          by simp only [handles, phase]⟩
        change link.client.Awaits reply (link.toClient ++ _)
        rw [toClient]
        exact client.awaits reply
      · cases impossible
  · refine .inl ⟨?_, rfl, .inr ⟨rfl, ?_⟩, by simp only [handles, phase]⟩
    rotate_left
    · simp only [work, phase, unsent, turns, PacketWriter.unsent_body_zero, List.length_nil]
      omega
    cases stage with
    | idle last client server toServer toClient =>
      rw [phase] at server
      exact .idle last client (.sent headBuffer) toServer toClient
    | requesting client server toClient =>
      rw [phase] at server
      exact .requesting client (server.turn headBuffer) toClient
    | replying server client toServer some small =>
      rw [phase] at server
      obtain ⟨-, rfl⟩ := sends_writing server
      exact .replying (.sent headBuffer) client toServer some small

theorem serverGoes_errCode {State : Type} {answer : Bytes → State → Option (Bytes × State)}
    {state nextState : State}
    (moved : link.serverGoes answer headBuffer state = some (next, nextState)) :
    next.errCode = link.errCode := by
  obtain ⟨_, _, _, ⟨_, _, rfl⟩ | ⟨_, _, rfl⟩⟩ | ⟨_, _, _, _, rfl⟩ := serverGoes_cases moved <;> rfl

/-- What a step on the connection does to the call. -/
theorem Stage.step {State : Type} {answer : Bytes → State → Option (Bytes × State)}
    {state nextState : State} {label : LinkStep} (stage : link.Stage requests replies)
    (ready : link.errCode ≠ RpcErrCode.recvTimeout.toNat)
    (good : ∀ request ∈ requests, Answers answer request) (whole : link.HeadersWhole label)
    (moved : link.step answer state label = some (next, nextState)) :
    next.errCode ≠ RpcErrCode.recvTimeout.toNat ∧
      ((next.Stage requests replies ∧ nextState = state ∧ link.Nearer next ∧
          link.handles label = false) ∨
        ∃ request others reply, requests = request :: others ∧
          answer request state = some (reply, nextState) ∧
          next.Stage others (replies ++ [reply]) ∧ next.requests = link.requests ∧
          link.handles label = true) := by
  cases label with
  | clientMoves count =>
    obtain ⟨_, moves, same⟩ := Option.map_eq_some_iff.mp moved
    cases same
    obtain ⟨stageNext, nearer⟩ := stage.clientMoves whole moves
    refine ⟨?_, .inl ⟨stageNext, rfl, nearer, rfl⟩⟩
    obtain ⟨_, _, _, _, _, rfl⟩ | ⟨_, _, _, _, _, rfl⟩ := clientMoves_cases moves
    · exact ready
    · exact ready
  | serverMoves count =>
    obtain ⟨_, moves, same⟩ := Option.map_eq_some_iff.mp moved
    cases same
    obtain ⟨stageNext, nearer⟩ :=
      stage.serverMoves (fun request member => (good request member).1) whole moves
    refine ⟨?_, .inl ⟨stageNext, rfl, nearer, rfl⟩⟩
    obtain ⟨_, _, _, _, _, rfl⟩ | ⟨_, _, _, _, _, rfl⟩ := serverMoves_cases moves
    · exact ready
    · exact ready
  | clientGoes headBuffer =>
    obtain ⟨_, goes, same⟩ := Option.map_eq_some_iff.mp moved
    cases same
    obtain ⟨stageNext, readyNext, nearer⟩ := stage.clientGoes ready goes
    exact ⟨readyNext, .inl ⟨stageNext, rfl, nearer, rfl⟩⟩
  | serverGoes headBuffer =>
    exact ⟨serverGoes_errCode moved ▸ ready, stage.serverGoes good moved⟩

end Link

/-! ### The service that the network makes up -/

namespace Network

variable {State Client : Type} [DecidableEq Client]
  {answer : Bytes → State → Option (Bytes × State)} {network next : Network State Client}

/-- The network has answered what the service has answered, and each call is somewhere between
its request and its reply. -/
structure Serves (answer : Bytes → State → Option (Bytes × State)) (network : Network State Client)
    (service : Service State Bytes Bytes Client) : Prop where
  state : service.state = network.state
  stage : ∀ client,
    (network.links client).Stage (service.requests client) (service.replies client)
  ready : ∀ client, (network.links client).errCode ≠ RpcErrCode.recvTimeout.toNat
  good : ∀ client, ∀ request ∈ service.requests client, Link.Answers answer request

/-- What every client has is kept when it is given anew to one of them. -/
theorem forall_update {Value : Type} (holds : Client → Value → Prop) {values : Client → Value}
    {client : Client} {value : Value} (others : ∀ other, holds other (values other))
    (given : holds client value) (other : Client) :
    holds other (Function.update values client value other) := by
  by_cases same : other = client
  · subst same
    rw [Function.update_self]
    exact given
  · rw [Function.update_of_ne same]
    exact others other

/-- A step on a connection that answers nothing. -/
theorem Serves.move {service : Service State Bytes Bytes Client}
    (serves : network.Serves answer service) {client : Client} {link : Link}
    (stage : link.Stage (service.requests client) (service.replies client))
    (ready : link.errCode ≠ RpcErrCode.recvTimeout.toNat) :
    Serves answer ⟨network.state, Function.update network.links client link⟩ service where
  state := serves.state
  stage := forall_update
    (fun other (link : Link) => link.Stage (service.requests other) (service.replies other))
    serves.stage stage
  ready := forall_update (fun _ (link : Link) => link.errCode ≠ RpcErrCode.recvTimeout.toNat)
    serves.ready ready
  good := serves.good

/-- A step on a connection that answers the client's request. -/
theorem Serves.answered {service : Service State Bytes Bytes Client}
    (serves : network.Serves answer service) {client : Client} {link : Link} {request reply : Bytes}
    {others : List Bytes} {state : State} (requests : service.requests client = request :: others)
    (stage : link.Stage others (service.replies client ++ [reply]))
    (ready : link.errCode ≠ RpcErrCode.recvTimeout.toNat) :
    Serves answer ⟨state, Function.update network.links client link⟩
      { state
        requests := Function.update service.requests client others
        replies :=
          Function.update service.replies client (service.replies client ++ [reply]) } where
  state := rfl
  stage other := by
    by_cases same : other = client
    · subst same
      simp only [Function.update_self]
      exact stage
    · simp only [Function.update_of_ne same]
      exact serves.stage other
  ready := forall_update (fun _ (link : Link) => link.errCode ≠ RpcErrCode.recvTimeout.toNat)
    serves.ready ready
  good := forall_update (fun _ requests => ∀ request ∈ requests, Link.Answers answer request)
    serves.good fun request member =>
      serves.good client request (requests ▸ List.mem_cons_of_mem _ member)

/-- Each step answers one request, or brings something nearer to where it has to go. -/
theorem Serves.step {service : Service State Bytes Bytes Client}
    (serves : network.Serves answer service) {label : Client × LinkStep}
    (whole : network.HeadersWhole label) (taken : network.step answer label = some next) :
    ∃ link after, next.links = Function.update network.links label.1 link ∧
      next.Serves answer after ∧
      (after = service ∧ (network.links label.1).Nearer link ∧ network.handled label = [] ∨
        service.step answer label.1 = some after ∧
          link.requests = (network.links label.1).requests ∧
          network.handled label = [label.1]) := by
  obtain ⟨client, label⟩ := label
  obtain ⟨⟨link, state⟩, moved, rfl⟩ := Option.map_eq_some_iff.mp taken
  obtain ⟨ready, answered⟩ := (serves.stage client).step (serves.ready client) (serves.good client)
    whole moved
  obtain ⟨stage, rfl, nearer, nothing⟩ |
    ⟨request, others, reply, requests, answered, stage, same, handles⟩ := answered
  · exact ⟨link, service, rfl, serves.move stage ready,
      .inl ⟨rfl, nearer, by rw [handled, nothing, if_neg Bool.false_ne_true]⟩⟩
  · rw [← serves.state] at answered
    exact ⟨link, _, rfl, serves.answered requests stage ready,
      .inr ⟨Service.step_of_answer requests answered, same, by rw [handled, handles, if_pos rfl]⟩⟩

/-- Along a run that moves whole headers, the service answers the requests in the order in which
the coroutines do. -/
theorem serves_run {service : Service State Bytes Bytes Client}
    (serves : network.Serves answer service) {labels : List (Client × LinkStep)}
    {final : Network State Client} (whole : Along (step answer) HeadersWhole network labels)
    (ran : run (step answer) network labels = some final) :
    ∃ after, run (Service.step answer) service (network.order answer labels) =
      some after ∧ final.Serves answer after := by
  induction labels generalizing network service with
  | nil =>
    cases ran
    exact ⟨service, rfl, serves⟩
  | cons label labels inductionHypothesis =>
    obtain ⟨next, taken, rest⟩ := (run_cons _).mp ran
    obtain ⟨here, later⟩ := whole
    rw [taken, Option.elim_some] at later
    obtain ⟨link, middle, -, servesNext, moved⟩ := serves.step here taken
    obtain ⟨after, answered, servesFinal⟩ := inductionHypothesis servesNext later rest
    refine ⟨after, ?_, servesFinal⟩
    rw [order, observed_cons _ taken]
    obtain ⟨rfl, -, nothing⟩ | ⟨one, -, handled⟩ := moved
    · rw [nothing]
      exact answered
    · rw [handled]
      exact (run_cons _).mpr ⟨middle, one, answered⟩

/-- Clients that have just been connected, with the calls they are going to make. -/
def connected (state : State) (errCode : Client → Int) (requests : Client → List Bytes)
    (headBuffers : Client → HeadBuffer) : Network State Client :=
  ⟨state, fun client => .connected (errCode client) (requests client) (headBuffers client)⟩

variable {state : State} {errCode : Client → Int} {requests : Client → List Bytes}
  {headBuffers : Client → HeadBuffer}

omit [DecidableEq Client] in
theorem Serves.connected (ready : ∀ client, errCode client ≠ RpcErrCode.recvTimeout.toNat)
    (good : ∀ client, ∀ request ∈ requests client, Link.Answers answer request) :
    (connected state errCode requests headBuffers).Serves answer
      ⟨state, requests, fun _ => []⟩ where
  state := rfl
  stage client := .idle [] rfl (.sent (headBuffers client)) rfl rfl
  ready := ready
  good := good

end Network

/-- How much of what has been answered a client knows. -/
theorem Link.Stage.known {link : Link} {requests replies : List Bytes}
    (stage : link.Stage requests replies) :
    link.replies <+: replies ∧ replies.length ≤ link.replies.length + 1 ∧
      link.requests <:+ requests := by
  cases stage with
  | idle => exact ⟨List.prefix_refl _, Nat.le_succ _, List.suffix_refl _⟩
  | requesting => exact ⟨List.prefix_refl _, Nat.le_succ _, List.suffix_cons _ _⟩
  | replying =>
    refine ⟨List.prefix_append _ _, ?_, List.suffix_refl _⟩
    rw [List.length_append]
    exact Nat.le_refl _

/-- What has been answered of each client's requests lies between what has returned and what has
begun. -/
theorem Network.Serves.between {State Client : Type} [DecidableEq Client]
    {answer : Bytes → State → Option (Bytes × State)} {network : Network State Client}
    {state : State} {requests : Client → List Bytes} {answered : List Client}
    {service : Service State Bytes Bytes Client} (serves : network.Serves answer service)
    (ran : run (Service.step answer) ⟨state, requests, fun _ => []⟩ answered = some service) :
    network.Between requests answered := by
  intro client
  obtain ⟨replies, left⟩ := Service.run_count ran client
  obtain ⟨known, -, remaining⟩ := (serves.stage client).known
  have returned := known.length_le
  have begun := remaining.length_le
  simp only [List.length_nil, Nat.zero_add] at replies left
  omega

/-- Whatever the clients and the coroutines do in whatever order, and however the bodies of the
packets are cut up, the network is a service that answers one request at a time, in the order in
which the coroutines do: it has the state that the answers have left, each request is answered
once, and each client has received the replies to its own requests in order, all but at most the
last one. At every moment the calls that have returned by then are among those answered by then,
and those that have not begun are among the later ones. -/
theorem network_serves {State Client : Type} [DecidableEq Client]
    (answer : Bytes → State → Option (Bytes × State)) (state : State) (errCode : Client → Int)
    (requests : Client → List Bytes) (headBuffers : Client → HeadBuffer)
    (ready : ∀ client, errCode client ≠ RpcErrCode.recvTimeout.toNat)
    (good : ∀ client, ∀ request ∈ requests client, Link.Answers answer request)
    (labels : List (Client × LinkStep)) (final : Network State Client)
    (whole : Along (Network.step answer) Network.HeadersWhole
      (.connected state errCode requests headBuffers) labels)
    (ran : run (Network.step answer) (.connected state errCode requests headBuffers) labels =
      some final) :
    (∃ service,
      run (Service.step answer) ⟨state, requests, fun _ => []⟩
          (Network.order answer (.connected state errCode requests headBuffers) labels) =
        some service ∧
      service.state = final.state ∧ ∀ client,
        (final.links client).replies <+: service.replies client ∧
          (service.replies client).length ≤ (final.links client).replies.length + 1 ∧
          (final.links client).requests <:+ service.requests client) ∧
    ∀ earlier later, labels = earlier ++ later → ∃ middle,
      run (Network.step answer) (.connected state errCode requests headBuffers) earlier =
        some middle ∧
      Network.order answer (.connected state errCode requests headBuffers) labels =
        Network.order answer (.connected state errCode requests headBuffers) earlier ++
          middle.order answer later ∧
      middle.Between requests
        (Network.order answer (.connected state errCode requests headBuffers) earlier) := by
  have initially : (Network.connected state errCode requests headBuffers).Serves answer
      ⟨state, requests, fun _ => []⟩ := .connected ready good
  constructor
  · obtain ⟨service, answered, serves⟩ := Network.serves_run initially whole ran
    exact ⟨service, answered, serves.state, fun client => (serves.stage client).known⟩
  · rintro earlier later rfl
    obtain ⟨middle, first, -⟩ := (run_append _).mp ran
    obtain ⟨service, answered, serves⟩ := Network.serves_run initially (along_left _ whole) first
    exact ⟨middle, first, observed_append _ first later, serves.between answered⟩

/-- Echoes a request, and counts it. -/
def echo (request : Bytes) (runs : Nat) : Option (Bytes × Nat) := some (request, runs + 1)

/-- A packet of two bytes is written, read in two pieces and answered, while another client is
about to write its own. -/
def echoSteps : List (Bool × LinkStep) :=
  [(true, .clientGoes BlockingRpcClient.zeroed), (false, .clientGoes BlockingRpcClient.zeroed),
    (true, .clientMoves 4), (true, .clientMoves 7), (true, .serverMoves 9),
    (false, .clientMoves 4), (true, .serverMoves 1), (true, .serverMoves 1),
    (true, .serverGoes BlockingRpcClient.zeroed)]

theorem echo_answers {request : Bytes} (some : request ≠ []) (small : request.length < 2 ^ 32) :
    Link.Answers echo request :=
  ⟨small, fun runs => ⟨request, runs + 1, rfl, some, small⟩⟩

theorem network_serves_echo :
    ∃ final, run (Network.step echo)
        (.connected 0 (fun _ => 0) (fun _ => [ascii "hi"]) fun _ => BlockingRpcClient.zeroed)
        echoSteps = some final ∧
      ∃ service,
        run (Service.step echo) ⟨0, fun _ => [ascii "hi"], fun _ => []⟩ [true] = some service ∧
          service.state = final.state ∧ ∀ client,
            (final.links client).replies <+: service.replies client ∧
              (service.replies client).length ≤ (final.links client).replies.length + 1 ∧
              (final.links client).requests <:+ service.requests client :=
  ⟨_, rfl, (network_serves echo 0 (fun _ => 0) (fun _ => [ascii "hi"])
    (fun _ => BlockingRpcClient.zeroed) (fun _ => by decide)
    (fun _ _ member => List.mem_singleton.mp member ▸ echo_answers (by decide) (by decide))
    echoSteps _ (by decide +kernel) rfl).1⟩

end Luce
