/-
This file models the HTTP server with the timers that close its connections.

A coroutine adds a timer when it begins to wait for a request, and removes it when the request
is complete. The thread that ticks spawns a thread for the task of a timer, which closes a
connection some time later. Where a read has returned nothing, the coroutine begins anew with
another timer, and nobody removes the one before.
-/

import Luce.Http.Sessions
import Luce.Timer.Queue
import Mathlib.Data.Multiset.Filter

namespace Luce.Http

open Library.Transition

/-- The server, the timers of its coroutines, and what the timers have set off. -/
structure TimedServer (State Client : Type) where
  server : Sessions State Client
  manager : TimerManager Client
  /-- `timer_id`, until the iteration that has it is over. -/
  timerId : Client → Option Nat
  /-- The connections that threads are about to close. -/
  closing : List Client

inductive TimedStep (Client : Type) where
  /-- An iteration begins: `AddTimer(1000, ...)` at this time. -/
  | addTimer (client : Client) (now : TimePoint)
  /-- `AsyncRead` returns nothing where a request is due, and the iteration is over. -/
  | idle (client : Client)
  /-- `AsyncRead` returns something else. -/
  | receive (client : Client) (chunk : Bytes)
  | write (client : Client) (label : AsyncWriteStep)
  | finish (client : Client)
  /-- An iteration of `Tick`. -/
  | tick (now : TimePoint)
  /-- A thread runs the task of a timer. -/
  | close (client : Client)
deriving DecidableEq

/-- What the step is to the connections. -/
def TimedStep.session {Client : Type} : TimedStep Client → Option (Client × SessionStep)
  | .addTimer _ _ | .tick _ => none
  | .idle client => some (client, .receive [])
  | .receive client chunk => some (client, .receive chunk)
  | .write client label => some (client, .write label)
  | .finish client => some (client, .finish)
  | .close client => some (client, .close)

def TimedStep.isTick {Client : Type} : TimedStep Client → Bool
  | .tick _ => true
  | .addTimer _ _ | .idle _ | .receive _ _ | .write _ _ | .finish _ | .close _ => false

/-- A read of this returns to the beginning of the loop. -/
def Serving.idles (serving : Serving) (chunk : Bytes) : Bool :=
  match serving.progress with
  | .waiting => chunk.isEmpty
  | .receiving _ _ | .returned | .failed _ => false

/-- The coroutine is about to begin an iteration, or to read in one. -/
def Session.waits (session : Session) : Bool :=
  match session.phase, session.serving.progress with
  | .reading _, .waiting => true
  | _, _ => false

/-- The coroutine waits for `AsyncWrite`. -/
def Session.sends (session : Session) : Bool :=
  match session.phase with
  | .sending _ _ => true
  | .reading _ => false

/-- A response is sent from when a request is passed on. -/
theorem Session.sends_step {State : Type} {answer : HttpRequest → State → Bytes × State}
    {session next : Session} {state final : State} {label : SessionStep}
    (taken : session.step answer state label = some (next, final)) (sends : next.sends) :
    session.sends ∨ session.serving.requests.length < next.serving.requests.length := by
  obtain ⟨serving, phase, unfinished⟩ := session
  cases phase with
  | sending => exact .inl rfl
  | reading conn =>
    cases label with
    | write | finish => cases taken
    | close =>
      cases taken
      cases sends
    | receive chunk =>
      obtain ⟨-, taken⟩ := Option.ite_none_left_eq_some.mp taken
      obtain ⟨passed, requests⟩ := Serving.requests_step serving chunk
      cases passed with
      | none =>
        simp only [requests, Option.toList_none, List.append_nil,
          List.getElem?_eq_none (Nat.le_refl _)] at taken
        cases taken
        cases sends
      | some request =>
        simp only [requests, Option.toList_some, List.getElem?_concat_length] at taken
        split at taken
        case isFalse => cases taken
        case isTrue small =>
          cases taken
          dsimp only
          rw [requests, Option.toList_some, List.length_append, List.length_singleton]
          exact .inr (Nat.lt_succ_self _)

namespace TimedServer

variable {State Client : Type} [DecidableEq Client]
  (answer : HttpRequest → State → Bytes × State)

def accepted (state : State) (conns : Client → WriteConnection) : TimedServer State Client :=
  ⟨.accepted state conns, .initial, fun _ => none, []⟩

/-- What happens on the connections. -/
def onSessions (timed : TimedServer State Client) (label : Client × SessionStep) :
    Option (TimedServer State Client) :=
  (timed.server.step answer label).map fun server => { timed with server }

/-- The iteration of this coroutine is over. -/
def ended (timed : TimedServer State Client) (client : Client) : TimedServer State Client :=
  { timed with timerId := Function.update timed.timerId client none }

/-- `RemoveTimer(timer_id)`, with which the iteration has no timer any more. -/
def removeTimer (timed : TimedServer State Client) (client : Client) (timerId : Nat) :
    TimedServer State Client :=
  { timed with manager := timed.manager.removeTimer timerId }.ended client

def step (timed : TimedServer State Client) :
    TimedStep Client → Option (TimedServer State Client)
  | .addTimer client now =>
    if (timed.server.sessions client).waits ∧ timed.timerId client = none then
      some { timed with
        manager := timed.manager.addTimer now 1000 client
        timerId := Function.update timed.timerId client (some timed.manager.timerId) }
    else none
  | .idle client =>
    if (timed.server.sessions client).serving.idles [] ∧ timed.timerId client ≠ none then
      (timed.onSessions answer (client, .receive [])).map fun timed => timed.ended client
    else none
  | .receive client chunk =>
    match timed.timerId client with
    | none => none
    | some timerId =>
      if (timed.server.sessions client).serving.idles chunk then none
      else
        (timed.onSessions answer (client, .receive chunk)).map fun next =>
          -- The timer is removed before the request is passed on.
          if (timed.server.sessions client).serving.requests.length <
              (next.server.sessions client).serving.requests.length then
            next.removeTimer client timerId
          else next
  | .write client label =>
    if label = .close then none else timed.onSessions answer (client, .write label)
  | .finish client => timed.onSessions answer (client, .finish)
  | .tick now =>
    match timed.manager.tick now with
    | (manager, none) => some { timed with manager }
    | (manager, some (.copied timer)) =>
      some { timed with manager, closing := timed.closing ++ [timer.task] }
    -- There is no task to be run.
    | (_, some .fresh) | (_, some .dangling) => none
  | .close client =>
    if client ∈ timed.closing then
      (timed.onSessions answer (client, .close)).map fun next =>
        { next with closing := next.closing.erase client }
    else none

/-! ### Which timers are pending -/

section Ledger

variable {manager : TimerManager Client} {timerId : Client → Option Nat} {idles : Client → Nat}
  {ticks : Nat}

/-- How many pending timers close this connection. -/
def closers (manager : TimerManager Client) (client : Client) : Nat :=
  manager.pending.countP fun timer => timer.task = client

/-- How many of them are those of an iteration that is over. -/
def abandoned (manager : TimerManager Client) (timerId : Client → Option Nat) (client : Client) :
    Nat :=
  manager.pending.countP fun timer =>
    timer.task = client ∧ timerId client ≠ some timer.timerId

theorem countP_le_of_imp {Item : Type} {items : Multiset Item} {narrow wide : Item → Prop}
    [DecidablePred narrow] [DecidablePred wide]
    (weaker : ∀ item ∈ items, narrow item → wide item) :
    items.countP narrow ≤ items.countP wide := by
  obtain ⟨list, rfl⟩ := Quot.exists_rep items
  refine List.countP_mono_left fun item member holds => ?_
  exact decide_eq_true (weaker item member (of_decide_eq_true holds))

/-- The timers that close a connection are those of iterations that are over, and the one of the
iteration that is not. -/
theorem closers_le (distinct : TimerManager.DistinctIds manager)
    (timerId : Client → Option Nat) (client : Client) :
    closers manager client ≤
      abandoned manager timerId client + (timerId client).toList.length := by
  cases current : timerId client with
  | none =>
    refine countP_le_of_imp fun timer _ isCloser => ⟨isCloser, ?_⟩
    rw [current]
    exact nofun
  | some own =>
    have once : manager.pending.countP (fun timer => timer.timerId = own) ≤ 1 := by
      have count := List.nodup_iff_count_le_one.mp distinct.nodup own
      rw [List.count, TimerManager.pendingIds, List.countP_map] at count
      exact count
    have split := Multiset.countP_eq_countP_filter_add manager.pending
      (fun timer => timer.task = client) (fun timer => timer.timerId = own)
    rw [closers, split, Multiset.countP_filter, Multiset.countP_filter, Nat.add_comm]
    refine Nat.add_le_add (countP_le_of_imp fun timer _ both => ⟨both.1, ?_⟩)
      ((countP_le_of_imp fun timer _ both => both.2).trans once)
    rw [current]
    exact fun same => both.2 (Option.some.inj same).symm

/-- Each timer that closes a connection is the one of its iteration, or is left from a read that
has returned nothing; and is there unless it has been taken out. -/
structure Ledger (manager : TimerManager Client) (timerId : Client → Option Nat)
    (idles : Client → Nat) (ticks : Nat) : Prop where
  distinct : TimerManager.DistinctIds manager
  narrow : manager.timerId < 2 ^ 64
  issued : ∀ client own, timerId client = some own → own < manager.timerId
  own : ∀ timer ∈ manager.pending, ∀ client, timerId client = some timer.timerId →
    timer.task = client
  atMost : ∀ client, abandoned manager timerId client ≤ idles client
  atLeast : ∀ client,
    idles client + (timerId client).toList.length ≤ closers manager client + ticks

theorem Ledger.initial :
    Ledger (.initial : TimerManager Client) (fun _ => none) (fun _ => 0) 0 where
  distinct := .initial
  narrow := Nat.two_pow_pos 64
  issued _ _ none := by cases none
  own _ member := absurd member (Multiset.notMem_zero _)
  atMost _ := Nat.le_refl _
  atLeast _ := Nat.le_refl _

theorem Ledger.addTimer (ledger : Ledger manager timerId idles ticks) {client : Client}
    (idle : timerId client = none) (room : manager.timerId + 1 < 2 ^ 64) (now : TimePoint)
    (milliseconds : UInt32) :
    Ledger (manager.addTimer now milliseconds client)
      (Function.update timerId client (some manager.timerId)) idles ticks := by
  have counter : (manager.addTimer now milliseconds client).timerId = manager.timerId + 1 :=
    Nat.mod_eq_of_lt room
  have pending := TimerManager.pending_addTimer manager now milliseconds client
  refine ⟨(ledger.distinct.step (.addTimer now milliseconds client) room).1, counter ▸ room, ?_,
    ?_, ?_, ?_⟩
  · intro other own isOwn
    rw [counter]
    by_cases same : other = client
    · subst same
      rw [Function.update_self] at isOwn
      cases isOwn
      exact Nat.lt_succ_self _
    · rw [Function.update_of_ne same] at isOwn
      exact (ledger.issued other own isOwn).trans (Nat.lt_succ_self _)
  · intro timer member other isOwn
    rw [pending] at member
    by_cases same : other = client
    · subst same
      rw [Function.update_self] at isOwn
      rcases Multiset.mem_cons.mp member with rfl | old
      · rfl
      · have below := ledger.distinct.below _
          (TimerManager.mem_pendingIds (TimerManager.mem_pending.mp old))
        exact absurd (Option.some.inj isOwn).symm (Nat.ne_of_lt below)
    · rw [Function.update_of_ne same] at isOwn
      rcases Multiset.mem_cons.mp member with rfl | old
      · exact absurd (ledger.issued other _ isOwn) (Nat.lt_irrefl _)
      · exact ledger.own timer old other isOwn
  · intro other
    refine Nat.le_trans ?_ (ledger.atMost other)
    rw [abandoned, abandoned, pending]
    by_cases same : other = client
    · subst same
      rw [Multiset.countP_cons_of_neg _ (by simp)]
      refine countP_le_of_imp fun timer _ both => ⟨both.1, ?_⟩
      rw [idle]
      exact nofun
    · rw [Multiset.countP_cons_of_neg _ fun both => same both.1.symm, Function.update_of_ne same]
  · intro other
    have before := ledger.atLeast other
    rw [closers] at before
    rw [closers, pending]
    by_cases same : other = client
    · subst same
      rw [idle, Option.toList_none, List.length_nil] at before
      rw [Function.update_self, Multiset.countP_cons_of_pos _ (by rfl), Option.toList_some,
        List.length_singleton]
      omega
    · rw [Multiset.countP_cons_of_neg _ fun closes => same closes.symm,
        Function.update_of_ne same]
      exact before

/-- The iteration is over, and its timer is left. -/
theorem Ledger.idle (ledger : Ledger manager timerId idles ticks) {client : Client} {own : Nat}
    (current : timerId client = some own) :
    Ledger manager (Function.update timerId client none)
      (Function.update idles client (idles client + 1)) ticks := by
  refine ⟨ledger.distinct, ledger.narrow, ?_, ?_, ?_, ?_⟩
  · intro other id isOwn
    by_cases same : other = client
    · subst same
      simp at isOwn
    · rw [Function.update_of_ne same] at isOwn
      exact ledger.issued other id isOwn
  · intro timer member other isOwn
    by_cases same : other = client
    · subst same
      simp at isOwn
    · rw [Function.update_of_ne same] at isOwn
      exact ledger.own timer member other isOwn
  · intro other
    by_cases same : other = client
    · subst same
      have all := closers_le ledger.distinct timerId other
      have before := ledger.atMost other
      have fewer : abandoned manager (Function.update timerId other none) other ≤
          closers manager other := countP_le_of_imp fun _ _ both => both.1
      rw [current, Option.toList_some, List.length_singleton] at all
      rw [Function.update_self]
      omega
    · simp only [abandoned, Function.update_of_ne same]
      exact ledger.atMost other
  · intro other
    have before := ledger.atLeast other
    by_cases same : other = client
    · subst same
      rw [current, Option.toList_some, List.length_singleton] at before
      rw [Function.update_self, Function.update_self, Option.toList_none, List.length_nil]
      exact before
    · rw [Function.update_of_ne same, Function.update_of_ne same]
      exact before

/-- What a removal takes out is the timer of the iteration, if it is still there. -/
theorem Ledger.removed (ledger : Ledger manager timerId idles ticks)
    (fits : TimerManager.Fits manager) {client : Client} {own : Nat}
    (current : timerId client = some own) :
    ∃ removed, manager.pending = removed + (manager.removeTimer own).pending ∧
      removed.card ≤ 1 ∧ (∀ timer ∈ removed, timer.task = client) ∧
      ∀ timer ∈ (manager.removeTimer own).pending, timer.timerId ≠ own := by
  rcases TimerManager.pending_removeTimer fits own with ⟨timer, rfl, found⟩ | ⟨absent, same⟩
  · have closes := ledger.own timer (found ▸ Multiset.mem_cons_self _ _) client current
    have nodup : (manager.pending.map Timer.timerId).Nodup := ledger.distinct.nodup
    rw [found, Multiset.map_cons, Multiset.nodup_cons] at nodup
    refine ⟨{timer}, found, Nat.le_of_eq (Multiset.card_singleton _), ?_, ?_⟩
    · intro other member
      rwa [Multiset.mem_singleton.mp member]
    · exact fun other member same => nodup.1 (Multiset.mem_map.mpr ⟨other, member, same⟩)
  · rw [same]
    exact ⟨0, (Multiset.zero_add _).symm, Nat.zero_le _,
      fun _ member => absurd member (Multiset.notMem_zero _), absent⟩

/-- The iteration is over, and its timer is removed. -/
theorem Ledger.removeTimer (ledger : Ledger manager timerId idles ticks)
    (fits : TimerManager.Fits manager) {client : Client} {own : Nat}
    (current : timerId client = some own) :
    Ledger (manager.removeTimer own) (Function.update timerId client none) idles ticks := by
  obtain ⟨removed, parts, few, closes, others⟩ := ledger.removed fits current
  have counter := (manager.removeTimer_rest own).1
  have still : ∀ other id, Function.update timerId client none other = some id →
      timerId other = some id := by
    intro other id isOwn
    by_cases same : other = client
    · subst same
      simp at isOwn
    · rwa [Function.update_of_ne same] at isOwn
  have fewer : (manager.removeTimer own).pending ≤ manager.pending :=
    parts ▸ Multiset.le_add_left _ _
  refine ⟨(ledger.distinct.step (.removeTimer own) ledger.narrow).1, counter ▸ ledger.narrow,
    ?_, ?_, ?_, ?_⟩
  · intro other id isOwn
    rw [counter]
    exact ledger.issued other id (still other id isOwn)
  · intro timer member other isOwn
    exact ledger.own timer (Multiset.mem_of_le fewer member) other (still other _ isOwn)
  · intro other
    refine Nat.le_trans ?_ (ledger.atMost other)
    refine Nat.le_trans (countP_le_of_imp fun timer member both => ⟨both.1, ?_⟩)
      (Multiset.countP_le_of_le _ fewer)
    by_cases same : other = client
    · rw [same, current]
      exact fun isOwn => others timer member (Option.some.inj isOwn).symm
    · rw [← Function.update_of_ne same none timerId]
      exact both.2
  · intro other
    have before := ledger.atLeast other
    rw [closers, parts, Multiset.countP_add] at before
    by_cases same : other = client
    · subst same
      have one := (Multiset.countP_le_card (fun timer => timer.task = other) removed).trans few
      rw [current, Option.toList_some, List.length_singleton] at before
      rw [Function.update_self, Option.toList_none, List.length_nil, closers]
      omega
    · have none : removed.countP (fun timer => timer.task = other) = 0 :=
        Multiset.countP_eq_zero.mpr fun timer member isOther =>
          same (isOther.symm.trans (closes timer member))
      rw [Function.update_of_ne same, closers]
      omega

/-- An iteration of `Tick` takes out one timer at most. -/
theorem Ledger.tick (ledger : Ledger manager timerId idles ticks) (now : TimePoint) :
    Ledger (manager.tick now).1 timerId idles (ticks + 1) := by
  have counter : (manager.tick now).1.timerId = manager.timerId :=
    (ledger.distinct.step (.tick now) ledger.narrow).2
  have distinct := (ledger.distinct.step (.tick now) ledger.narrow).1
  obtain ⟨removed, parts, few⟩ : ∃ removed, manager.pending =
      removed + (manager.tick now).1.pending ∧ removed.card ≤ 1 := by
    rcases manager.pending_tick now with same | ⟨top, taken⟩
    · exact ⟨0, by rw [same, Multiset.zero_add], Nat.zero_le _⟩
    · exact ⟨{top}, taken, Nat.le_of_eq (Multiset.card_singleton _)⟩
  have fewer : (manager.tick now).1.pending ≤ manager.pending :=
    parts ▸ Multiset.le_add_left _ _
  refine ⟨distinct, counter ▸ ledger.narrow, counter ▸ ledger.issued, ?_, ?_, ?_⟩
  · exact fun timer member => ledger.own timer (Multiset.mem_of_le fewer member)
  · exact fun client => (Multiset.countP_le_of_le _ fewer).trans (ledger.atMost client)
  · intro client
    have before := ledger.atLeast client
    have one := (Multiset.countP_le_card (fun timer => timer.task = client) removed).trans few
    rw [closers, parts, Multiset.countP_add] at before
    rw [closers]
    omega

end Ledger

/-! ### Runs -/

variable {answer} {timed next : TimedServer State Client}

/-- What a step can have done. -/
inductive Takes (answer : HttpRequest → State → Bytes × State)
    (timed : TimedServer State Client) : TimedStep Client → TimedServer State Client → Prop
  | addTimer {client : Client} (now : TimePoint) (waits : (timed.server.sessions client).waits)
      (idle : timed.timerId client = none) :
      Takes answer timed (.addTimer client now) { timed with
        manager := timed.manager.addTimer now 1000 client
        timerId := Function.update timed.timerId client (some timed.manager.timerId) }
  | idle {client : Client} {own : Nat} {server : Sessions State Client}
      (idles : (timed.server.sessions client).serving.idles [])
      (current : timed.timerId client = some own)
      (moved : timed.server.step answer (client, .receive []) = some server) :
      Takes answer timed (.idle client) ({ timed with server }.ended client)
  | received {client : Client} {own : Nat} {chunk : Bytes} {server : Sessions State Client}
      (current : timed.timerId client = some own)
      (moved : timed.server.step answer (client, .receive chunk) = some server)
      (passed : (timed.server.sessions client).serving.requests.length <
        (server.sessions client).serving.requests.length) :
      Takes answer timed (.receive client chunk) ({ timed with server }.removeTimer client own)
  | other {label : TimedStep Client} {client : Client} {moves : SessionStep}
      {server : Sessions State Client} {closing : List Client}
      (notIdle : ∀ client, label ≠ .idle client)
      (same : label.session = some (client, moves))
      (moved : timed.server.step answer (client, moves) = some server)
      (unpassed : (server.sessions client).serving.requests.length ≤
        (timed.server.sessions client).serving.requests.length) :
      Takes answer timed label { timed with server, closing }
  | tick (now : TimePoint) (closing : List Client) :
      Takes answer timed (.tick now) { timed with manager := (timed.manager.tick now).1, closing }

theorem takes_of_step {label : TimedStep Client} (taken : timed.step answer label = some next) :
    Takes answer timed label next := by
  have still : ∀ {client : Client} {moves : SessionStep} {server : Sessions State Client},
      moves.reads = [] → timed.server.step answer (client, moves) = some server →
        (server.sessions client).serving.requests.length ≤
          (timed.server.sessions client).serving.requests.length := by
    intro client moves server silent moved
    obtain ⟨⟨session, state⟩, stepped, rfl⟩ := Option.map_eq_some_iff.mp moved
    have same := (Session.step_cases stepped).1
    rw [silent] at same
    dsimp only
    rw [Function.update_self, same]
    exact Nat.le_refl _
  cases label with
  | addTimer client now =>
    obtain ⟨⟨waits, idle⟩, rfl⟩ :=
      Option.ite_none_right_eq_some.mp taken |>.imp_right Option.some.inj
    exact .addTimer now waits idle
  | idle client =>
    obtain ⟨⟨idles, begun⟩, taken⟩ := Option.ite_none_right_eq_some.mp taken
    obtain ⟨own, current⟩ := Option.ne_none_iff_exists'.mp begun
    obtain ⟨middle, onSessions, rfl⟩ := Option.map_eq_some_iff.mp taken
    obtain ⟨server, moved, rfl⟩ := Option.map_eq_some_iff.mp onSessions
    exact .idle idles current moved
  | receive client chunk =>
    cases current : timed.timerId client with
    | none =>
      rw [step, current] at taken
      cases taken
    | some own =>
      rw [step, current] at taken
      obtain ⟨-, taken⟩ := Option.ite_none_left_eq_some.mp taken
      obtain ⟨middle, onSessions, rfl⟩ := Option.map_eq_some_iff.mp taken
      obtain ⟨server, moved, rfl⟩ := Option.map_eq_some_iff.mp onSessions
      split
      case isTrue passed => exact .received current moved passed
      case isFalse unpassed => exact .other nofun rfl moved (Nat.le_of_not_lt unpassed)
  | write client label =>
    obtain ⟨-, taken⟩ := Option.ite_none_left_eq_some.mp taken
    obtain ⟨server, moved, rfl⟩ := Option.map_eq_some_iff.mp taken
    exact .other nofun rfl moved (still rfl moved)
  | finish client =>
    obtain ⟨server, moved, rfl⟩ := Option.map_eq_some_iff.mp taken
    exact .other nofun rfl moved (still rfl moved)
  | tick now =>
    rw [step] at taken
    split at taken
    case h_1 manager same =>
      cases taken
      have moved : (timed.manager.tick now).1 = manager := congrArg Prod.fst same
      exact moved ▸ .tick now timed.closing
    case h_2 manager timer same =>
      cases taken
      have moved : (timed.manager.tick now).1 = manager := congrArg Prod.fst same
      exact moved ▸ .tick now _
    case h_3 | h_4 => cases taken
  | close client =>
    obtain ⟨-, taken⟩ := Option.ite_none_right_eq_some.mp taken
    obtain ⟨middle, onSessions, rfl⟩ := Option.map_eq_some_iff.mp taken
    obtain ⟨server, moved, rfl⟩ := Option.map_eq_some_iff.mp onSessions
    exact .other nofun rfl moved (still rfl moved)

/-- The step is taken on the connections, if it is one of theirs. -/
theorem Takes.session {label : TimedStep Client} (takes : Takes answer timed label next) :
    run (Sessions.step answer) timed.server label.session.toList = some next.server := by
  cases takes with
  | addTimer | tick => rfl
  | idle idles current moved => exact (run_cons _).mpr ⟨_, moved, rfl⟩
  | received current moved => exact (run_cons _).mpr ⟨_, moved, rfl⟩
  | other notIdle same moved =>
    rw [same]
    exact (run_cons _).mpr ⟨_, moved, rfl⟩

/-- The ledger goes on, with another read that has returned nothing or another iteration of
`Tick`. -/
theorem Takes.ledger {label : TimedStep Client} (takes : Takes answer timed label next)
    {idles : Client → Nat} {ticks : Nat} (ledger : Ledger timed.manager timed.timerId idles ticks)
    (fits : TimerManager.Fits timed.manager) (room : timed.manager.timerId + 1 < 2 ^ 64) :
    Ledger next.manager next.timerId (fun client => idles client + [label].count (.idle client))
      (ticks + [label].countP TimedStep.isTick) := by
  cases takes with
  | addTimer now waits idle => exact ledger.addTimer idle room now 1000
  | @idle client own server isIdle current moved =>
    have counts : (fun other => idles other + [TimedStep.idle client].count (.idle other)) =
        Function.update idles client (idles client + 1) := by
      funext other
      by_cases same : other = client
      · subst same
        rw [Function.update_self, List.count_singleton_self]
      · rw [Function.update_of_ne same, List.count_singleton]
        simp [Ne.symm same]
    rw [counts]
    exact ledger.idle current
  | received current => exact ledger.removeTimer fits current
  | @other label client moves server closing notIdle same =>
    have noTick : label.isTick = false := by
      cases label with
      | tick => cases same
      | _ => rfl
    have noIdle : ∀ other, [label].count (.idle other) = 0 := fun other =>
      List.count_eq_zero.mpr fun member => notIdle other (List.mem_singleton.mp member).symm
    simp only [noIdle, List.countP_singleton, noTick, Nat.add_zero]
    exact ledger
  | tick now => exact ledger.tick now

/-- While a response is sent, the coroutine has no timer. -/
def Relieved (timed : TimedServer State Client) : Prop :=
  ∀ client, (timed.server.sessions client).sends → timed.timerId client = none

theorem Relieved.step (relieved : timed.Relieved) {label : TimedStep Client}
    (takes : Takes answer timed label next) : next.Relieved := by
  have elsewhere : ∀ {client other : Client} {moves : SessionStep}
      {server : Sessions State Client}, timed.server.step answer (client, moves) = some server →
        other ≠ client → server.sessions other = timed.server.sessions other := by
    intro client other moves server moved differs
    obtain ⟨moved, -, rfl⟩ := Option.map_eq_some_iff.mp moved
    exact Function.update_of_ne differs _ _
  intro other sends
  cases takes with
  | @addTimer client now waits idle =>
    by_cases same : other = client
    · subst same
      dsimp only at sends
      unfold Session.sends at sends
      unfold Session.waits at waits
      split at sends
      case h_1 phase =>
        rw [phase] at waits
        cases waits
      case h_2 => cases sends
    · dsimp only
      rw [Function.update_of_ne same]
      exact relieved other sends
  | @idle client own server idles current moved =>
    by_cases same : other = client
    · subst same
      exact Function.update_self ..
    · have before := relieved other (elsewhere moved same ▸ sends)
      exact (Function.update_of_ne same _ _).trans before
  | @received client own chunk server current moved passed =>
    by_cases same : other = client
    · subst same
      exact Function.update_self ..
    · have before := relieved other (elsewhere moved same ▸ sends)
      exact (Function.update_of_ne same _ _).trans before
  | @other label client moves server closing notIdle isSession moved unpassed =>
    by_cases same : other = client
    · subst same
      obtain ⟨⟨session, state⟩, stepped, rfl⟩ := Option.map_eq_some_iff.mp moved
      dsimp only at sends unpassed
      rw [Function.update_self] at sends unpassed
      have before := (Session.sends_step stepped sends).resolve_right (Nat.not_lt.mpr unpassed)
      exact relieved other before
    · exact relieved other (elsewhere moved same ▸ sends)
  | tick => exact relieved other sends

/-- What the server with its timers does to the connections is what the server without them may
do, and the timers are accounted for. -/
theorem accounted {labels : List (TimedStep Client)} {final : TimedServer State Client}
    {idles : Client → Nat} {ticks : Nat} (ledger : Ledger timed.manager timed.timerId idles ticks)
    (relieved : timed.Relieved) (ran : run (step answer) timed labels = some final)
    (roomy : Along (step answer) (fun timed _ =>
      TimerManager.Fits timed.manager ∧ timed.manager.timerId + 1 < 2 ^ 64) timed labels) :
    run (Sessions.step answer) timed.server (labels.filterMap TimedStep.session) =
        some final.server ∧
      Ledger final.manager final.timerId
        (fun client => idles client + labels.count (.idle client))
        (ticks + labels.countP TimedStep.isTick) ∧
      final.Relieved := by
  induction labels generalizing timed idles ticks with
  | nil =>
    cases ran
    exact ⟨rfl, ledger, relieved⟩
  | cons label labels inductionHypothesis =>
    obtain ⟨next, taken, later⟩ := (run_cons _).mp ran
    obtain ⟨⟨fits, room⟩, roomyLater⟩ := roomy
    rw [taken] at roomyLater
    have takes := takes_of_step taken
    obtain ⟨sessions, accounts, quiet⟩ := inductionHypothesis (takes.ledger ledger fits room)
      (relieved.step takes) later roomyLater
    have first : [label].filterMap TimedStep.session = label.session.toList := by
      cases label <;> rfl
    rw [← List.singleton_append, List.filterMap_append, first, List.countP_append]
    simp only [List.count_append, ← Nat.add_assoc]
    exact ⟨(run_append _).mpr ⟨_, takes.session, sessions⟩, accounts, quiet⟩

end TimedServer

/-- Timers leak by reads that return nothing, and by nothing else. Whatever comes in whatever
order, no timer closes a connection but the one of its iteration and at most one for each time
that a read has returned nothing where a request was due; and that many there are, but for those
that an iteration of `Tick` has taken out. The timer of a request is gone when it is answered.
To the connections, all of this is what may happen on them without timers. -/
theorem timers_accounted {State Client : Type} [DecidableEq Client]
    (answer : HttpRequest → State → Bytes × State) (state : State)
    (conns : Client → WriteConnection) (labels : List (TimedStep Client))
    (final : TimedServer State Client)
    (ran : run (TimedServer.step answer) (.accepted state conns) labels = some final)
    (roomy : Along (TimedServer.step answer) (fun timed _ =>
      TimerManager.Fits timed.manager ∧ timed.manager.timerId + 1 < 2 ^ 64)
      (.accepted state conns) labels) :
    (∀ client,
      (∀ timer ∈ final.manager.pending, final.timerId client = some timer.timerId →
        timer.task = client) ∧
      TimedServer.abandoned final.manager final.timerId client ≤ labels.count (.idle client) ∧
      labels.count (.idle client) ≤
        TimedServer.abandoned final.manager final.timerId client +
          labels.countP TimedStep.isTick ∧
      ((final.server.sessions client).sends → final.timerId client = none)) ∧
    run (Sessions.step answer) (.accepted state conns)
      (labels.filterMap TimedStep.session) = some final.server := by
  obtain ⟨sessions, ledger, relieved⟩ :=
    TimedServer.accounted .initial (fun _ _ => rfl) ran roomy
  refine ⟨fun client => ⟨fun timer member => ledger.own timer member client, ?_, ?_,
    relieved client⟩, sessions⟩
  · have atMost := ledger.atMost client
    rwa [Nat.zero_add] at atMost
  · have atLeast := ledger.atLeast client
    have closers := TimedServer.closers_le ledger.distinct final.timerId client
    omega

/-- One connection stays silent and is read twice, while the request of another is answered. The
timer of the first read is taken out, and that of the second one closes the connection. -/
theorem timers_accounted_silent :
    let answer : HttpRequest → Nat → Bytes × Nat := fun _ runs => (ascii "hi", runs + 1)
    let conns : Bool → WriteConnection := fun _ => ⟨false, [], []⟩
    let labels : List (TimedStep Bool) :=
      [.addTimer true 0, .addTimer false 5, .idle true, .addTimer true 7,
        .receive false (ascii "GET / HTTP/1.1\r\n\r\n"), .write false .attempt,
        .tick 1000000000, .close true]
    ∃ final, run (TimedServer.step answer) (.accepted 0 conns) labels = some final ∧
      TimedServer.abandoned final.manager final.timerId true ≤ 1 ∧
      1 ≤ TimedServer.abandoned final.manager final.timerId true + 1 ∧
      final.timerId false = none := by
  intro answer conns labels
  have seen : (run (TimedServer.step answer) (.accepted 0 conns) labels).map
      (fun final => (final.server.sessions false).sends) = some true := by decide +kernel
  obtain ⟨final, ran, sends⟩ := Option.map_eq_some_iff.mp seen
  obtain ⟨accounts, -⟩ := timers_accounted answer 0 conns labels final ran (by decide +kernel)
  obtain ⟨-, atMost, atLeast, -⟩ := accounts true
  obtain ⟨-, -, -, relieved⟩ := accounts false
  exact ⟨final, ran, atMost, atLeast, relieved sends⟩

end Luce.Http
