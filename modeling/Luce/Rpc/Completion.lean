/-
This file proves that the calls on the network come to an end, and that they end with all
replies received.

Somebody can always go on, as long as a client has a call to make or to finish; and nobody
can go on for ever: each step starts a call, answers one, or brings a byte or a thread
nearer to where it has to go.
-/

import Luce.Library.Waiting
import Luce.Rpc.Network

namespace Luce

open Library.Transition Library.Framing Library.Serving Library.Waiting

/-! ### Somebody can go on -/

namespace PacketReader

variable {payload stream : Bytes} {reader : PacketReader} {count : Nat}

/-- A reader whose packet is on its way is at its end, or has something to read. -/
theorem Reads.progress (reads : Reads payload reader stream) (positive : count ≠ 0) :
    (∃ already, reader = .body payload 0 already) ∨
      (∃ moved, reader.read count stream = some moved) ∧
        ∃ moved, reader.asyncRead count stream = some moved := by
  cases reads with
  | head headBuffer =>
    have some : frame headerSize payload ≠ [] := fun nothing => by
      have length := congrArg List.length nothing
      rw [frame, List.length_append, Library.LittleEndian.length_leBytes] at length
      cases (Nat.add_eq_zero_iff.mp length).1
    have present : ¬ (count = 0 ∨ frame headerSize payload = []) := not_or.mpr ⟨positive, some⟩
    exact .inr ⟨⟨_, if_neg present⟩, ⟨_, if_neg present⟩⟩
  | @body buffer rest total already size remaining content =>
    by_cases done : total = 0
    · subst done
      obtain ⟨rfl, -, -⟩ := Reads.payload_eq (.body size remaining content)
      exact .inl ⟨already, rfl⟩
    · have some : stream ≠ [] := fun nothing => done (by rw [← remaining, nothing]; rfl)
      have present : ¬ (count = 0 ∨ stream = [] ∨ total = 0) :=
        not_or.mpr ⟨positive, not_or.mpr ⟨some, done⟩⟩
      exact .inr ⟨⟨_, if_neg present⟩, ⟨_, if_neg present⟩⟩

end PacketReader

namespace Link

variable {State : Type} {answer : Bytes → State → Option (Bytes × State)} {link : Link}
  {requests replies : List Bytes}

/-- Calls that move as much as a header move whole headers. -/
theorem whole_headerSize (phase : PeerPhase) : phase.Whole headerSize := by
  rcases phase with _ | ⟨_ | _⟩ | ⟨_ | _⟩ | _
  · trivial
  · exact Nat.le_refl _
  · trivial
  · exact Nat.le_refl _
  · trivial
  · trivial

/-- There is a step on this connection that moves whole headers. -/
def CanGo (answer : Bytes → State → Option (Bytes × State)) (link : Link) (state : State) : Prop :=
  ∃ label, link.HeadersWhole label ∧ ∃ moved, link.step answer state label = some moved

variable {state : State}

theorem canGo_clientMoves {moved : Link} (moves : link.clientMoves headerSize = some moved) :
    link.CanGo answer state :=
  ⟨.clientMoves headerSize, whole_headerSize _, _, congrArg (Option.map _) moves⟩

theorem canGo_serverMoves {moved : Link} (moves : link.serverMoves headerSize = some moved) :
    link.CanGo answer state :=
  ⟨.serverMoves headerSize, whole_headerSize _, _, congrArg (Option.map _) moves⟩

theorem canGo_clientGoes {moved : Link}
    (goes : link.clientGoes BlockingRpcClient.zeroed = some moved) : link.CanGo answer state :=
  ⟨.clientGoes _, trivial, _, congrArg (Option.map _) goes⟩

theorem canGo_serverGoes {moved : Link × State}
    (goes : link.serverGoes answer BlockingRpcClient.zeroed state = some moved) :
    link.CanGo answer state :=
  ⟨.serverGoes _, trivial, _, goes⟩

/-- The end that has a packet to send can go on, or has sent it. -/
theorem canGo_of_client {payload unsent : Bytes} (sends : link.client.Sends payload unsent) :
    link.CanGo answer state ∨
      ∃ headBuffer, unsent = [] ∧ link.client = .reading (.fresh headBuffer) := by
  generalize phase : link.client = before at sends
  cases sends with
  | @writing writer fits =>
    refine .inl ?_
    by_cases done : writer.unsent = []
    · obtain ⟨already, rfl⟩ := fits.body_of_unsent done
      exact canGo_clientGoes (by simp only [Link.clientGoes, phase]; rfl)
    · obtain ⟨moved, wrote⟩ := PacketWriter.write_of_unsent done (by decide : headerSize ≠ 0)
      exact canGo_clientMoves (by simp only [Link.clientMoves, phase, wrote]; rfl)
  | sent headBuffer => exact .inr ⟨headBuffer, rfl, rfl⟩

theorem canGo_of_server {payload unsent : Bytes} (sends : link.server.Sends payload unsent) :
    link.CanGo answer state ∨
      ∃ headBuffer, unsent = [] ∧ link.server = .reading (.fresh headBuffer) := by
  generalize phase : link.server = before at sends
  cases sends with
  | @writing writer fits =>
    refine .inl ?_
    by_cases done : writer.unsent = []
    · obtain ⟨already, rfl⟩ := fits.body_of_unsent done
      exact canGo_serverGoes (by simp only [Link.serverGoes, phase]; rfl)
    · obtain ⟨moved, wrote⟩ := PacketWriter.write_of_unsent done (by decide : headerSize ≠ 0)
      exact canGo_serverMoves (by simp only [Link.serverMoves, phase, wrote]; rfl)
  | sent headBuffer => exact .inr ⟨headBuffer, rfl, rfl⟩

/-- On a connection where nothing can go on, all calls have been made, and their replies have been
received. -/
theorem Stage.canGo (stage : link.Stage requests replies)
    (good : ∀ request ∈ requests, Answers answer request) :
    link.CanGo answer state ∨ requests = [] ∧ link.client = .idle ∧ link.replies = replies := by
  have four : headerSize ≠ 0 := by decide
  cases stage with
  | idle last client server =>
    cases calls : link.requests with
    | nil => exact .inr ⟨rfl, client, rfl⟩
    | cons request others =>
      exact .inl (canGo_clientGoes (by simp only [Link.clientGoes, client, calls]; rfl))
  | @requesting request unsent client server toClient =>
    refine .inl ((canGo_of_client client).elim id ?_)
    rintro ⟨headBuffer, rfl, -⟩
    rw [List.append_nil] at server
    generalize phase : link.server = before, stream : link.toServer = pending at server
    cases server with
    | lagging => exact canGo_serverGoes (by simp only [Link.serverGoes, phase]; rfl)
    | @reading reader _ reads =>
      obtain ⟨already, rfl⟩ | ⟨-, moved, read⟩ := reads.progress four
      · obtain ⟨reply, next, answered, -⟩ := (good _ List.mem_cons_self).2 state
        exact canGo_serverGoes (by simp only [Link.serverGoes, phase, answered]; rfl)
      · exact canGo_serverMoves (by simp only [Link.serverMoves, phase, stream, read]; rfl)
  | @replying reply unsent server client toServer some small =>
    refine .inl ((canGo_of_server server).elim id ?_)
    rintro ⟨headBuffer, rfl, -⟩
    rw [List.append_nil] at client
    generalize phase : link.client = before, stream : link.toClient = pending at client
    cases client with
    | lagging => exact canGo_clientGoes (by simp only [Link.clientGoes, phase]; rfl)
    | @reading reader _ reads =>
      obtain ⟨already, rfl⟩ | ⟨⟨moved, read⟩, -⟩ := reads.progress four
      · exact canGo_clientGoes (by simp only [Link.clientGoes, phase]; rfl)
      · exact canGo_clientMoves (by simp only [Link.clientMoves, phase, stream, read]; rfl)

end Link

/-! ### Nobody can go on for ever -/

namespace Network

variable {State Client : Type} [DecidableEq Client] [Fintype Client]
  {answer : Bytes → State → Option (Bytes × State)} {network next : Network State Client}

/-- How many requests have to be answered and how many calls have to begin, and then how far
everything has to go. -/
def rank (network : Network State Client) (service : Service State Bytes Bytes Client) :
    Nat × Nat :=
  (weigh List.length service.requests + weigh (fun link => link.requests.length) network.links,
    weigh Link.work network.links)

theorem rank_lower {service : Service State Bytes Bytes Client}
    (serves : network.Serves answer service) {label : Client × LinkStep}
    (whole : network.HeadersWhole label) (taken : network.step answer label = some next) :
    ∃ after, next.Serves answer after ∧
      Prod.Lex (· < ·) (· < ·) (next.rank after) (network.rank service) := by
  obtain ⟨link, after, links, servesNext, moved⟩ := serves.step whole taken
  have calls := weigh_update (fun link => link.requests.length) network.links label.1 link
  have work := weigh_update Link.work network.links label.1 link
  refine ⟨after, servesNext, ?_⟩
  rw [rank, rank, links]
  obtain ⟨rfl, fewer | ⟨same, nearer⟩, -⟩ | ⟨answered, same, -⟩ := moved
  · exact .left _ _ (by omega)
  · rw [same] at calls
    rw [Nat.add_right_cancel calls]
    exact .right _ (by omega)
  · obtain ⟨request, requests, reply, state, next, -, rfl⟩ := Service.step_cases answered
    have fewer := weigh_update List.length service.requests label.1 requests
    rw [next, List.length_cons] at fewer
    rw [same] at calls
    refine .left _ _ ?_
    change weigh List.length (Function.update service.requests label.1 requests) + _ < _
    omega

/-- Nothing can go on without cutting up a header. -/
def AtRest (answer : Bytes → State → Option (Bytes × State)) (network : Network State Client) :
    Prop :=
  ∀ label, network.HeadersWhole label → network.step answer label = none

omit [Fintype Client] in
/-- At rest, nothing can go on on any connection. -/
theorem not_canGo_of_rest (rest : network.AtRest answer) (client : Client) :
    ¬ (network.links client).CanGo answer network.state := by
  rintro ⟨label, whole, moved, taken⟩
  have stays := rest (client, label) whole
  rw [Network.step, taken] at stays
  cases stays

omit [Fintype Client] in
/-- A network is at rest whose clients have no more calls to make. -/
theorem atRest_of_idle (idle : ∀ client, ∃ headBuffer, (network.links client).client = .idle ∧
    (network.links client).requests = [] ∧ (network.links client).toServer = [] ∧
    (network.links client).server = .reading (.fresh headBuffer)) : network.AtRest answer := by
  rintro ⟨client, label⟩ -
  obtain ⟨headBuffer, phase, requests, toServer, server⟩ := idle client
  have stays : (network.links client).step answer network.state label = none := by
    cases label with
    | clientMoves count => simp only [Link.step, Link.clientMoves, phase, Option.map_none]
    | serverMoves count =>
      have nothing : (PacketReader.fresh headBuffer).asyncRead count [] = none :=
        if_pos (.inr rfl)
      simp only [Link.step, Link.serverMoves, server, toServer, nothing, Option.map_none]
    | clientGoes held => simp only [Link.step, Link.clientGoes, phase, requests, Option.map_none]
    | serverGoes held => simp only [Link.step, Link.serverGoes, server, PacketReader.fresh]
  rw [Network.step, stays, Option.map_none]

end Network

/-- Whatever the clients and the coroutines do in whatever order, they do not go on for ever; and
when nothing can go on any more, every request has been answered, once, and every client has
received the replies to its requests, in order. -/
theorem network_completes {State Client : Type} [DecidableEq Client] [Fintype Client]
    (answer : Bytes → State → Option (Bytes × State)) (state : State) (errCode : Client → Int)
    (requests : Client → List Bytes) (headBuffers : Client → HeadBuffer)
    (ready : ∀ client, errCode client ≠ RpcErrCode.recvTimeout.toNat)
    (good : ∀ client, ∀ request ∈ requests client, Link.Answers answer request)
    (labels : List (Client × LinkStep)) (final : Network State Client)
    (whole : Along (Network.step answer) Network.HeadersWhole
      (.connected state errCode requests headBuffers) labels)
    (ran : run (Network.step answer) (.connected state errCode requests headBuffers) labels =
      some final) :
    (∀ (networks : Nat → Network State Client) (steps : Nat → Client × LinkStep),
      networks 0 = final → ¬ ∀ time, (networks time).HeadersWhole (steps time) ∧
        (networks time).step answer (steps time) = some (networks (time + 1))) ∧
    (final.AtRest answer → ∃ order service,
      run (Service.step answer) ⟨state, requests, fun _ => []⟩ order = some service ∧
        service.state = final.state ∧ ∀ client,
          service.requests client = [] ∧ (final.links client).client = .idle ∧
            (final.links client).replies = service.replies client) := by
  obtain ⟨service, answered, serves⟩ :=
    Network.serves_run (Network.Serves.connected ready good) whole ran
  constructor
  · intro networks steps begins runs
    have wellFounded : WellFounded (Prod.Lex (· < ·) (· < ·) : Nat × Nat → Nat × Nat → Prop) :=
      (Prod.lex Nat.lt_wfRel Nat.lt_wfRel).wf
    exact not_infinite (Network.step answer) wellFounded
      (fun _ _ _ _ serves whole taken => Network.rank_lower serves whole taken)
      (begins ▸ serves) runs
  · intro rest
    refine ⟨_, service, answered, serves.state, fun client => ?_⟩
    exact ((serves.stage client).canGo (serves.good client)).resolve_left
      (Network.not_canGo_of_rest rest client)

/-- The steps of a call with a packet of two bytes each way. -/
def callSteps (client : Bool) : List (Bool × LinkStep) :=
  [(client, .clientGoes BlockingRpcClient.zeroed), (client, .clientMoves 4),
    (client, .clientMoves 2), (client, .clientGoes BlockingRpcClient.zeroed),
    (client, .serverMoves 4), (client, .serverMoves 2),
    (client, .serverGoes BlockingRpcClient.zeroed), (client, .serverMoves 4),
    (client, .serverMoves 2), (client, .serverGoes BlockingRpcClient.zeroed),
    (client, .clientMoves 4), (client, .clientMoves 2),
    (client, .clientGoes BlockingRpcClient.zeroed)]

theorem network_completes_echo :
    ∃ final, run (Network.step echo)
        (.connected 0 (fun _ => 0) (fun _ => [ascii "hi"]) fun _ => BlockingRpcClient.zeroed)
        (callSteps true ++ callSteps false) = some final ∧
      ∃ order service,
        run (Service.step echo) ⟨0, fun _ => [ascii "hi"], fun _ => []⟩ order = some service ∧
          service.state = final.state ∧ ∀ client, service.requests client = [] ∧
            (final.links client).client = .idle ∧
            (final.links client).replies = service.replies client := by
  obtain ⟨final, ran, idle⟩ : ∃ final, run (Network.step echo)
      (.connected 0 (fun _ => 0) (fun _ => [ascii "hi"]) fun _ => BlockingRpcClient.zeroed)
      (callSteps true ++ callSteps false) = some final ∧ ∀ client : Bool,
        final.links client = ⟨0, [], [ascii "hi"], .idle, [], [],
          .reading (.fresh BlockingRpcClient.zeroed)⟩ :=
    ⟨_, rfl, fun client => by cases client <;> rfl⟩
  refine ⟨final, ran, (network_completes echo 0 (fun _ => 0) (fun _ => [ascii "hi"])
    (fun _ => BlockingRpcClient.zeroed) (fun _ => by decide)
    (fun _ _ member => List.mem_singleton.mp member ▸ echo_answers (by decide) (by decide))
    (callSteps true ++ callSteps false) final (by decide +kernel) ran).2 ?_⟩
  exact Network.atRest_of_idle fun client => by rw [idle client]; exact ⟨_, rfl, rfl, rfl, rfl⟩

end Luce
