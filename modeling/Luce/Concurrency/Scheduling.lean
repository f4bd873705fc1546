/-
This file proves that the pool resumes every coroutine it is given at most once for each
time it is given it, and on the thread that was asked for.

Whatever has been inserted is in a queue, held by a worker, or has been resumed. A call
inserts its item when it returns and not before, and an item that is meant for one worker
is in that worker's queue and cannot be stolen.
-/

import Luce.Concurrency.CoThreadPool

namespace Luce.Co

open Library.Holdings Library.Transition

variable {threadNum : Nat}

/-- The item of a worker, if it holds one. -/
def WorkerPhase.item : WorkerPhase → Multiset TaskItem
  | .holding item => {item}
  | .stealing _ | .popping | .refused | .exited => 0

/-- How many items a call has inserted. -/
def Call.inserts (call : Call threadNum) : Nat := if call.phase = .returned then 1 else 0

/-- The item is the one of its call, and at home here if the call names a worker. -/
def Belongs (calls : List (Call threadNum)) (item : TaskItem) (place : Fin threadNum) : Prop :=
  ∃ call, calls[item.ticket]? = some call ∧ call.coro = some item.handle ∧
    (call.id ≠ -1 → call.id = place ∧ item.canSteal = false)

/-- The calls go on, and others begin; none changes its handle or its worker. -/
def Continues (calls later : List (Call threadNum)) : Prop :=
  ∀ (ticket : Nat) (call : Call threadNum), calls[ticket]? = some call →
    ∃ next : Call threadNum, later[ticket]? = some next ∧ next.coro = call.coro ∧
      next.id = call.id

theorem Belongs.mono {calls later : List (Call threadNum)} {item : TaskItem}
    {place : Fin threadNum} (belongs : Belongs calls item place)
    (continues : Continues calls later) : Belongs later item place := by
  obtain ⟨call, found, handle, home⟩ := belongs
  obtain ⟨next, found', coro, id⟩ := continues _ call found
  exact ⟨next, found', coro.trans handle, by rwa [id]⟩

/-- A stolen item belongs anywhere. -/
theorem Belongs.stolen {calls : List (Call threadNum)} {item : TaskItem}
    {place : Fin threadNum} (belongs : Belongs calls item place) (canSteal : item.canSteal = true)
    (other : Fin threadNum) : Belongs calls item other := by
  obtain ⟨call, found, handle, home⟩ := belongs
  refine ⟨call, found, handle, fun named => ?_⟩
  rw [canSteal] at home
  exact absurd (home named).2 (by decide)

/-- A call in progress has an item, and inserts it where it belongs. -/
def Call.Fits (call : Call threadNum) : Prop :=
  match call.phase with
  | .trying _ | .choosing => call.coro ≠ none ∧ call.id = -1
  | .pushing queue canSteal =>
    call.coro ≠ none ∧ (call.id ≠ -1 → call.id = queue ∧ canSteal = false)
  | .returned | .rejected => True

namespace ThreadPool

/-- Everything that has been inserted into some queue. -/
def inserted (pool : ThreadPool threadNum) : Multiset TaskItem :=
  total fun queue => ((pool.queues queue).pushed : Multiset TaskItem)

def queued (pool : ThreadPool threadNum) : Multiset TaskItem :=
  total fun queue => ((pool.queues queue).items : Multiset TaskItem)

def held (pool : ThreadPool threadNum) : Multiset TaskItem :=
  total fun worker => (pool.workers worker).item

/-- How often the call with this ticket has inserted its item, into whatever queue. -/
def insertions (pool : ThreadPool threadNum) (ticket : Nat) : Nat :=
  pool.inserted.countP fun item => item.ticket = ticket

/-- How often the item of the call with this ticket has been resumed. -/
def resumptions (pool : ThreadPool threadNum) (ticket : Nat) : Nat :=
  pool.resumed.countP fun entry => entry.1.ticket = ticket

theorem inserted_setQueue (pool : ThreadPool threadNum) (queue : Fin threadNum)
    (content : BlockingQueue TaskItem) :
    (pool.setQueue queue content).inserted + ((pool.queues queue).pushed : Multiset TaskItem) =
      pool.inserted + (content.pushed : Multiset TaskItem) :=
  total_exchange (fun content : BlockingQueue TaskItem => (content.pushed : Multiset TaskItem))
    pool.queues queue content

theorem queued_setQueue (pool : ThreadPool threadNum) (queue : Fin threadNum)
    (content : BlockingQueue TaskItem) :
    (pool.setQueue queue content).queued + ((pool.queues queue).items : Multiset TaskItem) =
      pool.queued + (content.items : Multiset TaskItem) :=
  total_exchange (fun content : BlockingQueue TaskItem => (content.items : Multiset TaskItem))
    pool.queues queue content

theorem held_setWorker (pool : ThreadPool threadNum) (worker : Fin threadNum)
    (phase : WorkerPhase) :
    (pool.setWorker worker phase).held + (pool.workers worker).item = pool.held + phase.item :=
  total_exchange WorkerPhase.item pool.workers worker phase

/-- What holds of every queue still does when one of them changes, if it holds of that. -/
theorem forall_setQueue (good : Fin threadNum → BlockingQueue TaskItem → Prop)
    {pool : ThreadPool threadNum} (before : ∀ other, good other (pool.queues other))
    {queue : Fin threadNum} {content : BlockingQueue TaskItem} (here : good queue content)
    (other : Fin threadNum) : good other ((pool.setQueue queue content).queues other) := by
  by_cases same : other = queue
  · rw [same, queues_setQueue_self]
    exact here
  · rw [queues_setQueue_of_ne pool same]
    exact before other

theorem inserted_push (pool : ThreadPool threadNum) (queue : Fin threadNum) (item : TaskItem) :
    (pool.setQueue queue ((pool.queues queue).push item)).inserted = pool.inserted + {item} := by
  have exchanged := inserted_setQueue pool queue ((pool.queues queue).push item)
  rw [BlockingQueue.push, ← Multiset.coe_add, Multiset.coe_singleton] at exchanged
  refine add_right_cancel (exchanged.trans ?_)
  ac_rfl

theorem queued_push (pool : ThreadPool threadNum) (queue : Fin threadNum) (item : TaskItem) :
    (pool.setQueue queue ((pool.queues queue).push item)).queued = pool.queued + {item} := by
  have exchanged := queued_setQueue pool queue ((pool.queues queue).push item)
  rw [BlockingQueue.push, ← Multiset.coe_add, Multiset.coe_singleton] at exchanged
  refine add_right_cancel (exchanged.trans ?_)
  ac_rfl

/-- What has been inserted stays so when an item is taken out. -/
theorem inserted_popFront (pool : ThreadPool threadNum) (queue : Fin threadNum) (item : TaskItem)
    (items : List TaskItem) :
    (pool.setQueue queue ((pool.queues queue).popFront item items)).inserted = pool.inserted :=
  add_right_cancel (inserted_setQueue pool queue ((pool.queues queue).popFront item items))

theorem queued_popFront {pool : ThreadPool threadNum} {queue : Fin threadNum} {item : TaskItem}
    {items : List TaskItem} (front : (pool.queues queue).items = item :: items) :
    (pool.setQueue queue ((pool.queues queue).popFront item items)).queued + {item} =
      pool.queued := by
  have exchanged := queued_setQueue pool queue ((pool.queues queue).popFront item items)
  rw [front, BlockingQueue.popFront, ← Multiset.cons_coe, ← Multiset.singleton_add,
    ← add_assoc] at exchanged
  exact add_right_cancel exchanged

/-- What every step keeps. -/
structure Sound (pool : ThreadPool threadNum) : Prop where
  fifo : ∀ queue, (pool.queues queue).pushed =
    (pool.queues queue).popped ++ (pool.queues queue).items
  accounted : pool.inserted = pool.queued + pool.held + (pool.resumed.map Prod.fst : List TaskItem)
  insertions : ∀ ticket, pool.insertions ticket = (pool.calls[ticket]?).elim 0 Call.inserts
  fits : ∀ (ticket : Nat) (call : Call threadNum), pool.calls[ticket]? = some call → call.Fits
  pushed : ∀ queue, ∀ item ∈ (pool.queues queue).pushed, Belongs pool.calls item queue
  held : ∀ worker item, pool.workers worker = .holding item → Belongs pool.calls item worker
  resumed : ∀ entry ∈ pool.resumed, Belongs pool.calls entry.1 entry.2

theorem Sound.initial (enableWorkSteal : Bool) :
    (ThreadPool.initial enableWorkSteal : ThreadPool threadNum).Sound where
  fifo _ := rfl
  accounted := by
    have idle : (top enableWorkSteal).item = 0 := by cases enableWorkSteal <;> rfl
    have nothing : (ThreadPool.initial enableWorkSteal : ThreadPool threadNum).held = 0 := by
      simp only [ThreadPool.held, ThreadPool.initial, idle, total_zero]
    rw [nothing]
    exact (add_zero _).symm.trans (add_zero _).symm
  insertions ticket := by
    have nothing : (ThreadPool.initial enableWorkSteal : ThreadPool threadNum).inserted = 0 :=
      total_zero
    rw [ThreadPool.insertions, nothing]
    rfl
  fits := nofun
  pushed := nofun
  held worker item holding := by
    cases enableWorkSteal <;> cases holding
  resumed := nofun

/-! ### Calls -/

/-- Calls go on without inserting anything. -/
theorem Sound.goOn {pool : ThreadPool threadNum} (sound : pool.Sound)
    {later : List (Call threadNum)} (continues : Continues pool.calls later)
    (inserts : ∀ ticket : Nat, (later[ticket]?).elim 0 Call.inserts =
      (pool.calls[ticket]?).elim 0 Call.inserts)
    (fits : ∀ (ticket : Nat) (call : Call threadNum), later[ticket]? = some call → call.Fits) :
    Sound { pool with calls := later } where
  fifo := sound.fifo
  accounted := sound.accounted
  insertions ticket := (sound.insertions ticket).trans (inserts ticket).symm
  fits := fits
  pushed queue item member := (sound.pushed queue item member).mono continues
  held worker item holding := (sound.held worker item holding).mono continues
  resumed entry member := (sound.resumed entry member).mono continues

theorem getElem?_begin (calls : List (Call threadNum)) (call : Call threadNum) (ticket : Nat) :
    (calls ++ [call])[ticket]? =
      if ticket = calls.length then some call else calls[ticket]? := by
  rw [List.getElem?_append]
  split
  case isTrue inside => rw [if_neg (Nat.ne_of_lt inside)]
  case isFalse outside =>
    rw [Nat.not_lt] at outside
    split
    case isTrue last => simp [last]
    case isFalse other =>
      rw [List.getElem?_eq_none (by simp; omega), List.getElem?_eq_none outside]

/-- Another call begins. -/
theorem Sound.begin {pool : ThreadPool threadNum} (sound : pool.Sound) {call : Call threadNum}
    (fits : call.Fits) (fresh : call.phase ≠ .returned) :
    Sound { pool with calls := pool.calls ++ [call] } := by
  refine sound.goOn ?_ ?_ ?_
  · intro ticket other found
    refine ⟨other, ?_, rfl, rfl⟩
    have inside := (List.getElem?_eq_some_iff.mp found).1
    rw [getElem?_begin, if_neg (Nat.ne_of_lt inside)]
    exact found
  · intro ticket
    rw [getElem?_begin]
    split
    case isTrue last =>
      rw [last, List.getElem?_eq_none (Nat.le_refl _)]
      exact if_neg fresh
    case isFalse => rfl
  · intro ticket other found
    rw [getElem?_begin] at found
    split at found
    case isTrue =>
      cases found
      exact fits
    case isFalse => exact sound.fits ticket other found

theorem continues_set {calls : List (Call threadNum)} {ticket : Nat} {call next : Call threadNum}
    (found : calls[ticket]? = some call) (coro : next.coro = call.coro) (id : next.id = call.id) :
    Continues calls (calls.set ticket next) := by
  intro other before found'
  have inside := (List.getElem?_eq_some_iff.mp found).1
  rw [List.getElem?_set]
  split
  case isTrue same =>
    subst same
    cases found.symm.trans found'
    exact ⟨next, rfl, coro, id⟩
  case isFalse => exact ⟨before, found', rfl, rfl⟩

theorem fits_set {calls : List (Call threadNum)}
    (fits : ∀ (ticket : Nat) (call : Call threadNum), calls[ticket]? = some call → call.Fits)
    (ticket : Nat) {next : Call threadNum} (fitting : next.Fits) (other : Nat)
    (call : Call threadNum) (found : (calls.set ticket next)[other]? = some call) : call.Fits := by
  rw [List.getElem?_set] at found
  split at found
  case isTrue =>
    split at found
    case isTrue =>
      cases found
      exact fitting
    case isFalse => cases found
  case isFalse => exact fits other call found

/-- A call goes on without inserting anything. -/
theorem Sound.setCall {pool : ThreadPool threadNum} (sound : pool.Sound) {ticket : Nat}
    {call next : Call threadNum} (found : pool.calls[ticket]? = some call)
    (before : call.phase ≠ .returned) (after : next.phase ≠ .returned)
    (coro : next.coro = call.coro) (id : next.id = call.id) (fits : next.Fits) :
    (pool.setCall ticket next).Sound := by
  refine sound.goOn (continues_set found coro id) (fun other => ?_) (fits_set sound.fits ticket fits)
  rw [List.getElem?_set]
  split
  case isTrue same =>
    have inside := (List.getElem?_eq_some_iff.mp found).1
    rw [if_pos inside, ← same, found]
    exact (if_neg after).trans (if_neg before).symm
  case isFalse => rfl

/-- A call inserts its item. -/
theorem Sound.insert {pool : ThreadPool threadNum} (sound : pool.Sound) {ticket : Nat}
    {call : Call threadNum} (found : pool.calls[ticket]? = some call)
    (before : call.phase ≠ .returned) {handle : CoroHandle} (coro : call.coro = some handle)
    {queue : Fin threadNum} {canSteal : Bool}
    (home : call.id ≠ -1 → call.id = queue ∧ canSteal = false) :
    ((pool.setQueue queue ((pool.queues queue).push ⟨handle, canSteal, ticket⟩)).setCall ticket
      { call with phase := .returned }).Sound := by
  have continues : Continues pool.calls (pool.calls.set ticket { call with phase := .returned }) :=
    continues_set found rfl rfl
  have inside := (List.getElem?_eq_some_iff.mp found).1
  have inserted := inserted_push pool queue ⟨handle, canSteal, ticket⟩
  constructor
  case fifo =>
    refine forall_setQueue (fun _ queue => queue.pushed = queue.popped ++ queue.items)
      sound.fifo ?_
    simp only [BlockingQueue.push, sound.fifo queue, List.append_assoc]
  case accounted =>
    change (pool.setQueue queue _).inserted = (pool.setQueue queue _).queued + pool.held +
      (pool.resumed.map Prod.fst : List TaskItem)
    rw [inserted, queued_push, sound.accounted]
    ac_rfl
  case insertions =>
    intro other
    have earlier := sound.insertions other
    change (pool.setQueue queue _).inserted.countP _ = _
    rw [inserted, add_comm, Multiset.singleton_add, Multiset.countP_cons]
    change _ + _ = ((pool.calls.set ticket _)[other]?).elim 0 Call.inserts
    rw [List.getElem?_set]
    rw [ThreadPool.insertions] at earlier
    split
    case isTrue same =>
      subst same
      rw [earlier, found]
      simp [Call.inserts, before]
    case isFalse apart =>
      rw [earlier, add_zero]
  case fits => exact fits_set sound.fits ticket trivial
  case pushed =>
    refine forall_setQueue (fun place queue => ∀ item ∈ queue.pushed, Belongs _ item place)
      (fun other item member => (sound.pushed other item member).mono continues) ?_
    intro item member
    obtain old | new := List.mem_append.mp member
    · exact (sound.pushed queue item old).mono continues
    · rw [List.mem_singleton.mp new]
      exact ⟨{ call with phase := .returned }, List.getElem?_set_self inside, coro, home⟩
  case held => exact fun worker item holding => (sound.held worker item holding).mono continues
  case resumed => exact fun entry member => (sound.resumed entry member).mono continues

/-! ### Workers -/

/-- What the workers hold, when one that held nothing changes. -/
theorem held_of_empty {pool : ThreadPool threadNum} {worker : Fin threadNum}
    (before : (pool.workers worker).item = 0) (phase : WorkerPhase) :
    (pool.setWorker worker phase).held = pool.held + phase.item := by
  rw [← held_setWorker, before, add_zero]

/-- Another worker holds what it held, and this one what its phase says. -/
theorem Sound.held_setWorker {pool : ThreadPool threadNum} (sound : pool.Sound)
    {worker : Fin threadNum} {phase : WorkerPhase}
    (belongs : ∀ item, phase = .holding item → Belongs pool.calls item worker)
    (other : Fin threadNum) (item : TaskItem)
    (holding : (pool.setWorker worker phase).workers other = .holding item) :
    Belongs pool.calls item other := by
  by_cases same : other = worker
  · subst same
    rw [workers_setWorker_self] at holding
    exact belongs item holding
  · rw [workers_setWorker_of_ne pool same] at holding
    exact sound.held other item holding

theorem not_holding {phase : WorkerPhase} (empty : phase.item = 0) (item : TaskItem) :
    phase ≠ .holding item := by
  rintro rfl
  exact Multiset.singleton_ne_zero item empty

/-- A worker that holds nothing goes on without an item. -/
theorem Sound.move {pool : ThreadPool threadNum} (sound : pool.Sound) {worker : Fin threadNum}
    (before : (pool.workers worker).item = 0) {phase : WorkerPhase} (after : phase.item = 0) :
    (pool.setWorker worker phase).Sound where
  fifo := sound.fifo
  accounted := by
    rw [held_of_empty before, after, add_zero]
    exact sound.accounted
  insertions := sound.insertions
  fits := sound.fits
  pushed := sound.pushed
  held := sound.held_setWorker fun item holding => absurd holding (not_holding after item)
  resumed := sound.resumed

/-- A worker takes the item at the front of a queue. -/
theorem Sound.take {pool : ThreadPool threadNum} (sound : pool.Sound) {worker queue : Fin threadNum}
    (before : (pool.workers worker).item = 0) {item : TaskItem} {items : List TaskItem}
    (front : (pool.queues queue).items = item :: items)
    (belongs : Belongs pool.calls item worker) :
    ((pool.setQueue queue ((pool.queues queue).popFront item items)).setWorker worker
      (.holding item)).Sound := by
  have inserted := inserted_popFront pool queue item items
  constructor
  case fifo =>
    refine forall_setQueue (fun _ queue => queue.pushed = queue.popped ++ queue.items)
      sound.fifo ?_
    have order := sound.fifo queue
    rw [front] at order
    simp only [BlockingQueue.popFront, order, List.append_assoc, List.singleton_append]
  case accounted =>
    have held : ((pool.setQueue queue ((pool.queues queue).popFront item items)).setWorker worker
        (.holding item)).held = pool.held + {item} := held_of_empty before (.holding item)
    change (pool.setQueue queue _).inserted = (pool.setQueue queue _).queued + _ + _
    rw [held, inserted, sound.accounted, ← queued_popFront front]
    ac_rfl
  case insertions =>
    intro ticket
    change (pool.setQueue queue _).inserted.countP _ = _
    rw [inserted]
    exact sound.insertions ticket
  case fits => exact sound.fits
  case pushed =>
    exact forall_setQueue (fun place queue => ∀ item ∈ queue.pushed, Belongs _ item place)
      sound.pushed (sound.pushed queue)
  case held =>
    exact sound.held_setWorker fun item' same => by
      cases same
      exact belongs
  case resumed => exact sound.resumed

/-- A worker resumes its item. -/
theorem Sound.resume {pool : ThreadPool threadNum} (sound : pool.Sound) {worker : Fin threadNum}
    {item : TaskItem} (holding : pool.workers worker = .holding item) {phase : WorkerPhase}
    (after : phase.item = 0) :
    ({ pool with resumed := pool.resumed ++ [(item, worker)] }.setWorker worker phase).Sound where
  fifo := sound.fifo
  accounted := by
    have given := ThreadPool.held_setWorker pool worker phase
    rw [holding, after, add_zero, WorkerPhase.item] at given
    change pool.inserted = pool.queued + (pool.setWorker worker phase).held +
      ((pool.resumed ++ [(item, worker)]).map Prod.fst : List TaskItem)
    rw [List.map_append, ← Multiset.coe_add, sound.accounted, ← given]
    change _ = _ + _ + (_ + {item})
    ac_rfl
  insertions := sound.insertions
  fits := sound.fits
  pushed := sound.pushed
  held := sound.held_setWorker fun item holding => absurd holding (not_holding after item)
  resumed entry member := by
    obtain old | same := List.mem_append.mp member
    · exact sound.resumed entry old
    · rw [List.mem_singleton.mp same]
      exact sound.held worker item holding

/-! ### Steps -/

/-- A call of `ScheduleById` begins, or the process ends. -/
theorem Sound.scheduleById {pool : ThreadPool threadNum} (sound : pool.Sound)
    (coro : Option CoroHandle) (id : Int) : (pool.scheduleById coro id).Sound := by
  unfold ThreadPool.scheduleById
  split
  case isTrue => exact sound.begin trivial nofun
  case isFalse some =>
  split
  case isTrue => exact sound.begin trivial nofun
  case isFalse =>
  split
  case isTrue unnamed =>
    split
    · exact sound.begin ⟨some, unnamed⟩ nofun
    · exact sound.begin ⟨some, unnamed⟩ nofun
  case isFalse =>
  split
  case isTrue inside =>
    exact sound.begin ⟨some, fun _ => ⟨(Int.toNat_of_nonneg inside.2).symm, rfl⟩⟩ nofun
  case isFalse =>
    exact ⟨sound.fifo, sound.accounted, sound.insertions, sound.fits, sound.pushed, sound.held,
      sound.resumed⟩

theorem Sound.tryPush [NeZero threadNum] {pool : ThreadPool threadNum} (sound : pool.Sound)
    {ticket : Nat} {handle : CoroHandle} {id : Int} {round : Nat}
    (found : pool.calls[ticket]? = some ⟨some handle, id, .trying round⟩) (locked : Bool) :
    (pool.tryPush ticket ⟨some handle, id, .trying round⟩ handle round locked).Sound := by
  have fits : some handle ≠ none ∧ id = -1 := sound.fits ticket _ found
  cases locked with
  | true => exact sound.insert found nofun rfl fun named => absurd fits.2 named
  | false =>
    simp only [ThreadPool.tryPush, BlockingQueue.tryPush, Bool.false_eq_true, if_false]
    split
    · exact sound.setCall found nofun nofun rfl rfl fits
    · exact sound.setCall found nofun nofun rfl rfl fits

theorem Sound.steal [NeZero threadNum] {pool : ThreadPool threadNum} (sound : pool.Sound)
    {worker : Fin threadNum} {i : Nat} (stealing : pool.workers worker = .stealing i)
    (locked : Bool) : (pool.steal worker i locked).Sound := by
  have before : (pool.workers worker).item = 0 := by rw [stealing]; rfl
  unfold ThreadPool.steal
  obtain ⟨item, items, front, canSteal, taken⟩ | nothing :=
    (pool.queues (Fin.ofNat threadNum (worker + i))).tryPopIf_cases locked (·.canSteal)
  · have member : item ∈ (pool.queues (Fin.ofNat threadNum (worker + i))).pushed := by
      rw [sound.fifo, front]
      simp
    simp only [taken]
    exact sound.take before front ((sound.pushed _ item member).stolen canSteal worker)
  · simp only [nothing]
    refine sound.move before ?_
    split <;> rfl

/-- The destructor stops a queue. -/
theorem Sound.stopQueue {pool : ThreadPool threadNum} (sound : pool.Sound)
    (queue : Fin threadNum) (count : Nat) :
    Sound { pool.setQueue queue { pool.queues queue with stop := true } with
      stoppedQueues := count } := by
  have inserted : (pool.setQueue queue { pool.queues queue with stop := true }).inserted =
      pool.inserted := add_right_cancel (inserted_setQueue pool queue _)
  have queued : (pool.setQueue queue { pool.queues queue with stop := true }).queued =
      pool.queued := add_right_cancel (queued_setQueue pool queue _)
  constructor
  case fifo =>
    exact forall_setQueue (fun _ queue => queue.pushed = queue.popped ++ queue.items)
      sound.fifo (sound.fifo queue)
  case accounted => exact (inserted.trans sound.accounted).trans (by rw [← queued]; rfl)
  case insertions =>
    intro ticket
    exact (congrArg (Multiset.countP _) inserted).trans (sound.insertions ticket)
  case fits => exact sound.fits
  case pushed =>
    exact forall_setQueue (fun place queue => ∀ item ∈ queue.pushed, Belongs _ item place)
      sound.pushed (sound.pushed queue)
  case held => exact sound.held
  case resumed => exact sound.resumed

theorem Sound.step [NeZero threadNum] {pool next : ThreadPool threadNum}
    {label : ThreadPoolStep threadNum} (sound : pool.Sound)
    (taken : pool.step label = some next) : next.Sound := by
  have idle : ∀ enableWorkSteal, (top enableWorkSteal).item = 0 := by
    intro enableWorkSteal
    cases enableWorkSteal <;> rfl
  cases takes_of_step taken with
  | scheduleById coro id => exact sound.scheduleById coro id
  | tryPush found locked => exact sound.tryPush found locked
  | @choose ticket coro id found queue =>
    have fits : coro ≠ none ∧ id = -1 := sound.fits ticket _ found
    exact sound.setCall found nofun nofun rfl rfl ⟨fits.1, fun named => absurd fits.2 named⟩
  | push found => exact sound.insert found nofun rfl (sound.fits _ _ found).2
  | steal stealing locked => exact sound.steal stealing locked
  | @popItem worker item items popping front =>
    have member : item ∈ (pool.queues worker).pushed := by
      rw [sound.fifo, front]
      simp
    exact sound.take (by rw [popping]; rfl) front (sound.pushed worker item member)
  | popNothing popping => exact sound.move (by rw [popping]; rfl) rfl
  | check refused =>
    refine sound.move (by rw [refused]; rfl) ?_
    split
    · rfl
    · exact idle _
  | resume holding => exact sound.resume holding (idle _)
  | stop =>
    exact ⟨sound.fifo, sound.accounted, sound.insertions, sound.fits, sound.pushed, sound.held,
      sound.resumed⟩
  | stopQueue => exact sound.stopQueue _ _

theorem resumptions_eq (pool : ThreadPool threadNum) (ticket : Nat) :
    pool.resumptions ticket =
      ((pool.resumed.map Prod.fst : List TaskItem) : Multiset TaskItem).countP
        fun item => item.ticket = ticket := by
  rw [Multiset.coe_countP, List.countP_map, resumptions]
  rfl

/-- An item is resumed as often as it has been inserted, at most. -/
theorem Sound.resumptions_le {pool : ThreadPool threadNum} (sound : pool.Sound) (ticket : Nat) :
    pool.resumptions ticket ≤ pool.insertions ticket := by
  rw [resumptions_eq, ThreadPool.insertions, sound.accounted, Multiset.countP_add]
  exact Nat.le_add_left _ _

/-- The call with this ticket returns in some continuation. -/
def Returns [NeZero threadNum] (pool : ThreadPool threadNum) (ticket : Nat) : Prop :=
  ∃ later final call, run step pool later = some final ∧ final.calls[ticket]? = some call ∧
    call.phase = .returned

theorem Returns.of_step [NeZero threadNum] {pool next : ThreadPool threadNum} {ticket : Nat}
    {label : ThreadPoolStep threadNum} (taken : pool.step label = some next)
    (returns : next.Returns ticket) : pool.Returns ticket := by
  obtain ⟨later, final, call, ran, found, returned⟩ := returns
  exact ⟨label :: later, final, call, (run_cons _).mpr ⟨next, taken, ran⟩, found, returned⟩

/-- A call that pushes is not held up. -/
theorem returns_of_pushing [NeZero threadNum] {pool : ThreadPool threadNum}
    (alive : pool.aborted = false) {ticket : Nat} {handle : CoroHandle} {id : Int}
    {queue : Fin threadNum} {canSteal : Bool}
    (found : pool.calls[ticket]? = some ⟨some handle, id, .pushing queue canSteal⟩) :
    pool.Returns ticket := by
  have inside := (List.getElem?_eq_some_iff.mp found).1
  have taken : pool.step (.push ticket) = some ((pool.setQueue queue ((pool.queues queue).push
      ⟨handle, canSteal, ticket⟩)).setCall ticket ⟨some handle, id, .returned⟩) := by
    simp [ThreadPool.step, alive, found]
  exact .of_step taken ⟨[], _, ⟨some handle, id, .returned⟩, rfl,
    List.getElem?_set_self inside, rfl⟩

/-- No call is held up for ever. -/
theorem Sound.returns [NeZero threadNum] {pool : ThreadPool threadNum} (sound : pool.Sound)
    (alive : pool.aborted = false) {ticket : Nat} {call : Call threadNum}
    (found : pool.calls[ticket]? = some call) (accepted : call.phase ≠ .rejected) :
    pool.Returns ticket := by
  have inside := (List.getElem?_eq_some_iff.mp found).1
  have fits := sound.fits ticket call found
  obtain ⟨coro, id, phase⟩ := call
  cases phase with
  | trying round =>
    obtain ⟨handle, rfl⟩ := Option.ne_none_iff_exists'.mp fits.1
    have taken : pool.step (.tryPush ticket true) =
        some (pool.tryPush ticket ⟨some handle, id, .trying round⟩ handle round true) := by
      simp [ThreadPool.step, alive, found]
    exact .of_step taken ⟨[], _, ⟨some handle, id, .returned⟩, rfl,
      List.getElem?_set_self inside, rfl⟩
  | choosing =>
    obtain ⟨handle, rfl⟩ := Option.ne_none_iff_exists'.mp fits.1
    have taken : pool.step (.choose ticket 0) = some (pool.setCall ticket
        ⟨some handle, id, .pushing 0 pool.enableWorkSteal⟩) := by
      simp [ThreadPool.step, alive, found]
    have pushing : (pool.setCall ticket ⟨some handle, id, .pushing 0 pool.enableWorkSteal⟩
        ).calls[ticket]? = some ⟨some handle, id, .pushing 0 pool.enableWorkSteal⟩ :=
      List.getElem?_set_self inside
    refine .of_step taken (returns_of_pushing ?_ pushing)
    exact alive
  | pushing queue canSteal =>
    obtain ⟨handle, rfl⟩ := Option.ne_none_iff_exists'.mp fits.1
    exact returns_of_pushing alive found
  | returned => exact ⟨[], pool, _, rfl, found, rfl⟩
  | rejected => exact absurd rfl accepted

end ThreadPool

/-- In whatever the threads reach in whatever order, a call that has returned has inserted
its item once, into one queue, and any other call has not inserted it yet, but will unless
it is rejected; the item has the handle of the call, and waits in the queue of the worker
that the call names; it is resumed once at most, and by that worker; and every queue is
left in the order in which it is entered. -/
theorem scheduling_exact {threadNum : Nat} [NeZero threadNum] (enableWorkSteal : Bool)
    (steps : List (ThreadPoolStep threadNum)) (final : ThreadPool threadNum)
    (ran : run ThreadPool.step (.initial enableWorkSteal) steps = some final) :
    (∀ (ticket : Nat) (call : Call threadNum), final.calls[ticket]? = some call →
        final.insertions ticket = (if call.phase = .returned then 1 else 0) ∧
          (final.aborted = false → call.phase ≠ .rejected → final.Returns ticket) ∧
          final.resumptions ticket ≤ 1) ∧
      (∀ queue, ∀ item ∈ (final.queues queue).pushed, Belongs final.calls item queue) ∧
      (∀ entry ∈ final.resumed, Belongs final.calls entry.1 entry.2) ∧
      ∀ queue, (final.queues queue).pushed =
        (final.queues queue).popped ++ (final.queues queue).items := by
  have sound : final.Sound := invariant_run ThreadPool.step
    (fun _ _ _ sound taken => sound.step taken) (.initial enableWorkSteal) ran
  refine ⟨fun ticket call found => ?_, sound.pushed, sound.resumed, sound.fifo⟩
  have inserted : final.insertions ticket = if call.phase = .returned then 1 else 0 := by
    rw [sound.insertions, found]
    rfl
  refine ⟨inserted, fun alive accepted => sound.returns alive found accepted,
    (sound.resumptions_le ticket).trans ?_⟩
  rw [inserted]
  split
  · exact Nat.le_refl 1
  · exact Nat.zero_le 1

/-- One coroutine is meant for the second worker, which resumes it. -/
theorem scheduling_exact_two :
    ∃ final, run ThreadPool.step (.initial true : ThreadPool 2)
      [.scheduleById (some 7) 1, .scheduleById (some 8) (-1), .push 0, .tryPush 1 false,
        .tryPush 1 true, .steal 0 true, .steal 0 true, .steal 1 true, .steal 1 true, .pop 1,
        .resume 1] = some final ∧
      ∀ entry ∈ final.resumed, Belongs final.calls entry.1 entry.2 :=
  ⟨_, rfl, (scheduling_exact true
    [.scheduleById (some 7) 1, .scheduleById (some 8) (-1), .push 0, .tryPush 1 false,
      .tryPush 1 true, .steal 0 true, .steal 0 true, .steal 1 true, .steal 1 true, .pop 1,
      .resume 1] _ rfl).2.2.1⟩

end Luce.Co
