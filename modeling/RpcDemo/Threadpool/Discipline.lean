import RpcDemo.Threadpool.Exceptions
import RpcDemo.Threadpool.Futures
import RpcDemo.Threadpool.WaitWakeUp
import RpcDemo.Threadpool.WakeUp

/-!
# A pool in good use

What user code has to obey so that nothing is left undone: the pool stays open, no
push fails and no detached function throws; a task waits neither for the pool nor
for a future that is not ready; a future gets one continuation.  A notification is
not missed.  In a run of such use some more of the pool's state is known.
-/

namespace RpcDemo.Threadpool

open Ledger Transition

variable {Fn Value Error : Type}

/-! ## What user code obeys -/

/-- The function on top of the stack was posted by `post_detach`. -/
def Code.inDetached (code : Code Fn Value Error) : Bool :=
  match code.stack with
  | .run _ _ none :: _ => true
  | _ => false

/-- The step breaks none of the rules: no failed push, no shutdown, no wait in a task, one
continuation for a future, no exception out of a detached function. -/
def Code.Obeys (memory : Memory Fn Value Error) (isWorker : Bool) (code : Code Fn Value Error) :
    Move Fn Value Error → Prop
  | .fail _ => False
  | .call .shutdown => False
  | .call .destroy => False
  | .call .wait => isWorker = false
  | .call (.attach upstream _ _) => attachments memory.states upstream = 0
  | .finish (.error _) => code.inDetached = false
  | _ => True

namespace Futures

/-- User code obeys, no notification is missed, and a task waits for completed states only. -/
def Disciplined (futures : Futures Fn Value Error) : Event Fn Value Error → Prop
  | .pool event =>
      (∀ thread ∈ futures.pool.threads[event.thread]?,
        thread.code.Obeys futures.pool.memory thread.isWorker event.move) ∧
      futures.pool.NotifiesUnlocked event ∧ futures.pool.AnnouncesUnlocked event
  | .access thread (some state) _ =>
      futures.pool.threads[thread]?.any Thread.isWorker = true →
        Completed futures.pool.memory.states state
  | _ => True

end Futures

instance (memory : Memory Fn Value Error) (isWorker : Bool) (code : Code Fn Value Error) :
    (move : Move Fn Value Error) → Decidable (code.Obeys memory isWorker move)
  | .fail _ | .call .shutdown | .call .destroy => isFalse id
  | .call .wait => inferInstanceAs (Decidable (isWorker = false))
  | .call (.attach upstream _ _) =>
      inferInstanceAs (Decidable (attachments memory.states upstream = 0))
  | .finish (.error _) => inferInstanceAs (Decidable (code.inDetached = false))
  | .finish (.ok _) | .call (.postDetach _) | .call (.post _) | .turn | .notifyOne _ =>
      isTrue trivial

instance (states : List (Stage Fn Value Error)) (state : ℕ) : Decidable (Completed states state) :=
  decidable_of_iff _ completed_eq_one_iff

instance (futures : Futures Fn Value Error) :
    (event : Futures.Event Fn Value Error) → Decidable (futures.Disciplined event)
  | .pool _ => inferInstanceAs (Decidable (_ ∧ _))
  | .access _ (some _) _ => inferInstanceAs (Decidable (_ → _))
  | .access _ none _ | .ready _ => isTrue trivial

/-! ## What is then known of the memory -/

/-- The pool is open, nothing was lost or thrown, and no future has two continuations. -/
structure Memory.Open (workers : ℕ) (memory : Memory Fn Value Error) : Prop where
  shutdown : memory.shutdown = false
  lost : memory.lost = []
  threw : memory.threw = []
  workers : memory.queues.length = workers
  round : memory.roundIndex < 2 ^ 64
  single : ∀ upstream, attachments memory.states upstream ≤ 1

namespace Memory.Open

variable {workers : ℕ} {memory : Memory Fn Value Error}

theorem setCell (hopen : memory.Open workers) {state : ℕ} {stage : Stage Fn Value Error}
    (hstage : memory.states[state]? = some stage)
    (cell : SharedState (Completion Value Error) (Callable Fn)) :
    (memory.setCell state stage cell).Open workers where
  shutdown := hopen.shutdown
  lost := hopen.lost
  threw := hopen.threw
  workers := hopen.workers
  round := hopen.round
  single upstream := (attachments_setCell hstage cell upstream).trans_le (hopen.single upstream)

theorem advanceRound (hopen : memory.Open workers) : memory.advanceRound.Open workers where
  shutdown := hopen.shutdown
  lost := hopen.lost
  threw := hopen.threw
  workers := hopen.workers
  round := Nat.mod_lt _ (by decide)
  single := hopen.single

theorem returnPosted (hopen : memory.Open workers) (callable : Callable Fn) :
    (memory.returnPosted callable).Open workers := by
  cases callable with
  | promised state fn =>
      refine ⟨hopen.shutdown, hopen.lost, hopen.threw, hopen.workers, hopen.round, ?_⟩
      intro upstream
      exact (attachments_markReturned memory state upstream).trans_le (hopen.single upstream)
  | _ => exact hopen

theorem invoke (hopen : memory.Open workers) (stack : List (Suspended Fn Value))
    (callable : Callable Fn) : (Code.invoke memory stack callable).2.Open workers := by
  cases callable <;>
    exact ⟨hopen.shutdown, hopen.lost, hopen.threw, hopen.workers, hopen.round, hopen.single⟩

theorem invokeExtracted (hopen : memory.Open workers) (stack : List (Suspended Fn Value))
    (cont : Option (Callable Fn)) :
    (Code.invokeExtracted memory stack cont).memory.Open workers := by
  cases cont with
  | none => exact hopen
  | some callable => exact hopen.invoke stack callable

theorem queues (hopen : memory.Open workers) {queues : List (List (Package Fn))}
    (hqueues : queues.length = memory.queues.length) {pushed started : List ℕ} :
    Memory.Open workers { memory with queues := queues, pushed := pushed, started := started } where
  shutdown := hopen.shutdown
  lost := hopen.lost
  threw := hopen.threw
  workers := hqueues.trans hopen.workers
  round := hopen.round
  single := hopen.single

/-- A step by the rules leaves the pool open. -/
theorem code_acted (hopen : memory.Open workers) {code : Code Fn Value Error} {isWorker : Bool}
    {move : Move Fn Value Error} {effect : Effect Fn Value Error}
    (hacted : Code.Acted memory code move effect) (hobeys : code.Obeys memory isWorker move)
    (hcalm : ∀ point, code.active ≠ some (.shutdown point)) : effect.memory.Open workers := by
  cases hacted with
  | fail => exact absurd hobeys id
  | throwDetached => simp [Code.Obeys, Code.inDetached] at hobeys
  | shutdown => exact absurd rfl (hcalm .store)
  | pick => exact hopen.advanceRound
  | push package stack victim queue hqueue => exact hopen.queues List.length_set
  | notify package stack woken => exact hopen.returnPosted package.callable
  | getFuture cont inlineExec stack stage hstage => exact hopen.setCell hstage _
  | stored cont inlineExec stack stage hstage => exact hopen.setCell hstage _
  | execute => exact hopen.invokeExtracted _ _
  | complete state completion stack stage hstage =>
      exact (hopen.setCell hstage _).invokeExtracted _ _
  | recover state error stack stage hstage => exact (hopen.setCell hstage _).invokeExtracted _ _
  | refuse state completion => cases completion <;> exact hopen
  | attached cont stack => exact hopen.returnPosted (.promised cont.next cont.func)
  | post fn stack huser =>
      refine ⟨hopen.shutdown, hopen.lost, hopen.threw, hopen.workers, hopen.round, ?_⟩
      intro upstream
      exact (attachments_append memory.states _ upstream).trans_le (hopen.single upstream)
  | attach other fn inlineExec stack stage huser hstage hreturned =>
      refine ⟨hopen.shutdown, hopen.lost, hopen.threw, hopen.workers, hopen.round, ?_⟩
      intro upstream
      refine (attachments_append memory.states _ upstream).trans_le ?_
      have hsingle := hopen.single upstream
      by_cases heq : other = upstream
      · have hfree : attachments memory.states upstream = 0 := heq ▸ hobeys
        simp [Origin.attaches, heq, hfree]
      · simpa [Origin.attaches, heq] using hsingle
  | _ =>
      exact ⟨hopen.shutdown, hopen.lost, hopen.threw, hopen.workers, hopen.round, hopen.single⟩

end Memory.Open

/-! ## What is then known of the threads -/

/-- A call that holds a queue holds one of the pool, and a task neither waits nor shuts
down. -/
def Active.Tidy (workers : ℕ) (isWorker : Bool) : Active Fn Value Error → Prop
  | .enqueue _ (.count victim) => victim < workers
  | .enqueue _ (.push victim) => victim < workers
  | .wait _ => isWorker = false
  | .shutdown _ => False
  | _ => True

/-- The active call, if there is one, is such a call. -/
def Code.Tidy (workers : ℕ) (isWorker : Bool) (code : Code Fn Value Error) : Prop :=
  ∀ active ∈ code.active, active.Tidy workers isWorker

/-- So is the code of a thread; a worker steals from a queue of the pool and has not
exited. -/
def Thread.Tidy (workers : ℕ) : Thread Fn Value Error → Prop
  | .caller code => code.Tidy workers false
  | .worker _ (.running _ code) => code.Tidy workers true
  | .worker _ (.steal victim) => victim < workers
  | .worker _ .exited => False
  | .worker _ _ => True

namespace Code

variable {workers : ℕ} {isWorker : Bool} {memory : Memory Fn Value Error}

theorem tidy_none (stack : List (Suspended Fn Value)) :
    (⟨none, stack⟩ : Code Fn Value Error).Tidy workers isWorker := by
  simp [Tidy]

theorem tidy_some {active : Active Fn Value Error} {stack : List (Suspended Fn Value)} :
    (⟨some active, stack⟩ : Code Fn Value Error).Tidy workers isWorker ↔
      active.Tidy workers isWorker := by
  simp [Tidy]

theorem tidy_invoke (memory : Memory Fn Value Error) (stack : List (Suspended Fn Value))
    (callable : Callable Fn) : (invoke memory stack callable).1.Tidy workers isWorker := by
  cases callable with
  | detached fn | promised state fn => exact tidy_none _
  | continuation cont | submit cont => exact tidy_some.mpr trivial

theorem tidy_invokeExtracted (memory : Memory Fn Value Error) (stack : List (Suspended Fn Value))
    (cont : Option (Callable Fn)) :
    ((invokeExtracted memory stack cont).code.getD .idle).Tidy workers isWorker := by
  cases cont with
  | none => exact tidy_none _
  | some callable => exact tidy_invoke memory stack callable

theorem tidy_raise (error : Thrown Error) (stack : List (Suspended Fn Value)) :
    (((raise error stack).getD .idle : Code Fn Value Error)).Tidy workers isWorker := by
  induction stack with
  | nil => exact tidy_none _
  | cons frame stack ih =>
      cases frame with
      | run fn arg state => exact tidy_none _
      | trying state => exact tidy_some.mpr trivial
      | attached cont => exact ih

/-- A step by the rules leaves the code tidy. -/
theorem Tidy.acted {code : Code Fn Value Error} {move : Move Fn Value Error}
    {effect : Effect Fn Value Error} (htidy : code.Tidy workers isWorker)
    (hacted : Acted memory code move effect) (hobeys : code.Obeys memory isWorker move)
    (hworkers : memory.queues.length = workers) (hpos : 0 < workers) :
    (effect.code.getD .idle).Tidy workers isWorker := by
  cases hacted with
  | fail | escape | throwDetached => exact tidy_raise _ _
  | execute | complete | recover => exact tidy_invokeExtracted _ _ _
  | refuse state completion =>
      cases completion with
      | ok value => exact tidy_some.mpr trivial
      | error error => exact tidy_raise _ _
  | pick package stack =>
      have hvictim : memory.victim < workers := hworkers ▸ Nat.mod_lt _ (hworkers ▸ hpos)
      exact tidy_some.mpr hvictim
  | count package stack victim =>
      have hvictim : victim < workers := tidy_some.mp htidy
      exact tidy_some.mpr hvictim
  | waitCheck | waitBlock =>
      have hcaller : isWorker = false := tidy_some.mp htidy
      exact tidy_some.mpr hcaller
  | destroy | shutdown | notifyAll => exact absurd (tidy_some.mp htidy) id
  | wait stack huser => exact tidy_some.mpr hobeys
  | callShutdown | callDestroy => exact absurd hobeys id
  | push | getFuture | getError | finish | postDetach | post | attach => exact tidy_some.mpr trivial
  | _ => exact tidy_none _

end Code

namespace Thread

variable {workers : ℕ} {memory : Memory Fn Value Error} {move : Move Fn Value Error}
variable {thread : Thread Fn Value Error} {progress : Progress Fn Value Error}

/-- A step by the rules leaves the thread tidy. -/
theorem Tidy.act (htidy : thread.Tidy workers) (hact : thread.act memory move = some progress)
    (hobeys : thread.code.Obeys memory thread.isWorker move) (hopen : memory.Open workers)
    (hpos : 0 < workers) : progress.thread.Tidy workers := by
  have hlength := hopen.workers
  cases acted_of_act hact with
  | caller code _ effect hacted => exact Code.Tidy.acted htidy hacted hobeys hlength hpos
  | task id task code after _ memory' signal hbusy hacted =>
      exact Code.Tidy.acted htidy hacted hobeys hlength hpos
  | terminate => exact Code.tidy_none _
  | popFront id package | popBack id victim package => exact Code.tidy_invoke _ _ _
  | exit id hshutdown => simp [hopen.shutdown] at hshutdown
  | ownEmpty id hqueue =>
      simp only
      split <;> trivial
  | pick id victim =>
      -- the inversion of a step forgets which queue the worker goes to
      obtain rfl := (WorkerPoint.steal.inj (Thread.worker.inj
        (Progress.mk.inj (Option.some.inj hact)).1).2)
      simp only [Tidy, ← hlength] at hpos ⊢
      split <;> exact Nat.mod_lt _ hpos
  | _ => trivial

theorem Tidy.wakeWorker (htidy : thread.Tidy workers) : thread.wakeWorker.Tidy workers := by
  unfold Thread.wakeWorker
  split
  · trivial
  · exact htidy

theorem Tidy.wakeWaiter (htidy : thread.Tidy workers) : thread.wakeWaiter.Tidy workers := by
  unfold Thread.wakeWaiter
  split
  · exact Code.tidy_some.mpr rfl
  · have hcaller : true = false := Code.tidy_some.mp htidy
    exact Code.tidy_some.mpr hcaller
  · exact htidy

/-- A step of a thread by the rules leaves the pool open. -/
theorem open_acted (hopen : memory.Open workers) (htidy : thread.Tidy workers)
    (hacted : thread.Acted memory move progress)
    (hobeys : thread.code.Obeys memory thread.isWorker move) : progress.memory.Open workers := by
  have hcalm : ∀ isWorker, thread.code.Tidy workers isWorker →
      ∀ point, thread.code.active ≠ some (.shutdown point) :=
    fun _ hcode point hactive => hcode _ hactive
  have hstart : ∀ (id : ℕ) (package : Package Fn) (queues : List (List (Package Fn))),
      queues.length = memory.queues.length →
      (startTask { memory with queues := queues } id package).memory.Open workers :=
    fun id package queues hqueues => (hopen.queues hqueues).invoke [] package.callable
  cases hacted with
  | caller code _ effect hacted => exact hopen.code_acted hacted hobeys (hcalm false htidy)
  | task id task code after _ memory' signal hbusy hacted =>
      exact hopen.code_acted hacted hobeys (hcalm true htidy)
  | terminate id task code _ memory' signal hacted =>
      obtain ⟨hshutdown, hlost, hthrew, hworkers, hround, hsingle⟩ :=
        hopen.code_acted hacted hobeys (hcalm true htidy)
      exact ⟨hshutdown, hlost, hthrew, hworkers, hround, hsingle⟩
  | exit id hshutdown => simp [hopen.shutdown] at hshutdown
  | popFront id package queue hqueue => exact hstart id package _ List.length_set
  | popBack id victim package queue hqueue => exact hstart id package _ List.length_set
  | pick id victim => exact hopen.advanceRound
  | loop | ownEmpty | notify | stealEmpty | resume => exact hopen
  | finishTask | check | block =>
      exact ⟨hopen.shutdown, hopen.lost, hopen.threw, hopen.workers, hopen.round, hopen.single⟩

/-- The id of a worker. -/
def workerId : Thread Fn Value Error → Option ℕ
  | .caller _ => none
  | .worker id _ => some id

theorem workerId_wakeWorker (thread : Thread Fn Value Error) :
    thread.wakeWorker.workerId = thread.workerId := by
  unfold Thread.wakeWorker
  split <;> rfl

theorem workerId_wakeWaiter (thread : Thread Fn Value Error) :
    thread.wakeWaiter.workerId = thread.workerId := by
  unfold Thread.wakeWaiter
  split <;> rfl

/-- A step keeps the id of a worker. -/
theorem workerId_of_acted (hacted : thread.Acted memory move progress) :
    progress.thread.workerId = thread.workerId := by
  cases hacted <;> rfl

end Thread

/-! ## Runs -/

namespace Pool

variable {workers : ℕ} {pool next : Pool Fn Value Error} {event : Threadpool.Event Fn Value Error}

/-- Pool and waits are as they are after a run in which user code obeys. -/
structure Orderly (workers : ℕ) (pool : Pool Fn Value Error) : Prop where
  lawful : pool.Lawful
  wakes : Wakes pool.memory.gate pool.threads
  waiters : WaitersWake pool.memory.gate pool.threads
  alive : pool.memory.terminated = false
  memory : pool.memory.Open workers
  tidy : ∀ thread ∈ pool.threads, thread.Tidy workers
  ids : ∀ index, pool.threads[index]?.bind Thread.workerId =
    if index < workers then some index else none

/-- The thread that acts in a step, both as it computes and by cases. -/
theorem act_of_step (hstep : pool.step event = some next) :
    ∃ thread progress, pool.Stepped event next thread progress ∧
      thread.act pool.memory event.move = some progress := by
  simp only [step, Option.ite_none_left_eq_some, Bool.not_eq_true, Option.bind_eq_some_iff,
    Option.map_eq_some_iff] at hstep
  obtain ⟨halive, thread, hthread, progress, hact, threads, hthreads, rfl⟩ := hstep
  exact ⟨thread, progress, ⟨halive, hthread, Thread.acted_of_act hact, hthreads, rfl⟩, hact⟩

/-- A step by the rules keeps a pool orderly. -/
theorem Orderly.step (horderly : pool.Orderly workers) (hpos : 0 < workers)
    (hobeys : ∀ thread ∈ pool.threads[event.thread]?,
      thread.code.Obeys pool.memory thread.isWorker event.move)
    (hnotifies : pool.NotifiesUnlocked event) (hannounces : pool.AnnouncesUnlocked event)
    (hstep : pool.step event = some next) : next.Orderly workers := by
  obtain ⟨hlawful, hwakes, hwaiters, halive, hopen, htidy, hids⟩ := horderly
  obtain ⟨thread, progress, hstepped, hact⟩ := act_of_step hstep
  have hmem := List.mem_of_getElem? hstepped.found
  have hmay := hobeys thread hstepped.found
  have hconserved := hlawful.coherent.conserved
  have hafter := Thread.open_acted hopen (htidy thread hmem) hstepped.acted hmay
  constructor
  · exact hlawful.step hstep
  · exact wakes_step hconserved hwakes hnotifies hstep
  · exact waitersWake_step hconserved hwaiters hannounces hstep
  · rw [hstepped.memory]
    exact hlawful.not_terminated_step halive hmem hstepped.acted ⟨hopen.lost, hafter.lost⟩
      ⟨hopen.threw, hafter.threw⟩
  · rwa [hstepped.memory]
  · exact hstepped.forall_threads (fun _ => Thread.Tidy.wakeWorker)
      (fun _ => Thread.Tidy.wakeWaiter) htidy ((htidy thread hmem).act hact hmay hopen hpos)
  · intro index
    have hview := hstepped.map_view Thread.workerId_wakeWorker Thread.workerId_wakeWaiter
      (Thread.workerId_of_acted hstepped.acted) index
    have hbind : ∀ thread : Option (Thread Fn Value Error),
        thread.bind Thread.workerId = (thread.map Thread.workerId).bind id := by
      intro thread
      cases thread <;> rfl
    rw [← hids index, hbind, hbind, hview]

/-- A new pool is orderly. -/
theorem start_orderly (workers callers : ℕ) :
    (start workers callers : Pool Fn Value Error).Orderly workers where
  lawful := ⟨start_coherent workers callers, start_covered workers callers⟩
  wakes := start_wakes workers callers
  waiters := by
    have hguarded : Guarded step AnnouncesUnlocked
        (start workers callers : Pool Fn Value Error) [] := trivial
    exact waitersWake_of_run hguarded (run_nil _)
  alive := rfl
  memory := ⟨rfl, rfl, rfl, List.length_replicate, Nat.two_pow_pos 64, fun _ => Nat.zero_le 1⟩
  tidy := by
    intro thread hthread
    simp only [start, List.mem_append, List.mem_map, List.mem_replicate] at hthread
    obtain ⟨id, _, rfl⟩ | ⟨_, rfl⟩ := hthread
    · trivial
    · exact Code.tidy_none []
  ids := by
    intro index
    simp only [start, List.getElem?_append, List.length_map, List.length_range]
    split
    case isTrue hlt => simp [hlt, Thread.workerId]
    case isFalse hge =>
      simp only [List.getElem?_replicate]
      split <;> rfl

/-- The workers of an orderly pool are its first threads, each with its index as id. -/
theorem Orderly.worker (horderly : pool.Orderly workers) {index id : ℕ}
    {point : WorkerPoint Fn Value Error}
    (hthread : pool.threads[index]? = some (.worker id point)) : id = index ∧ id < workers := by
  have hid := horderly.ids index
  rw [hthread, Option.bind_some, Thread.workerId] at hid
  split at hid
  case isTrue hlt =>
    obtain rfl := Option.some.inj hid
    exact ⟨rfl, hlt⟩
  case isFalse => simp at hid

end Pool

namespace Futures

variable {workers callers : ℕ} {futures next : Futures Fn Value Error}
variable {event : Event Fn Value Error}

/-- The pool is orderly, and the tasks wait for completed states only. -/
structure Orderly (workers : ℕ) (futures : Futures Fn Value Error) : Prop where
  pool : futures.pool.Orderly workers
  calls : futures.HoldsCalls
  ready : ∀ call ∈ futures.calls, futures.pool.threads[call.thread]?.any Thread.isWorker = true →
    Completed futures.pool.memory.states call.state

/-- `get_future` on a state keeps a pool orderly. -/
theorem orderly_retrieve {pool : Pool Fn Value Error} (horderly : pool.Orderly workers) {state : ℕ}
    {stage : Stage Fn Value Error} (hstage : pool.memory.states[state]? = some stage) :
    (pool.retrieve state stage).Orderly workers where
  lawful := horderly.lawful.retrieve hstage
  wakes := horderly.wakes
  waiters := horderly.waiters
  alive := horderly.alive
  memory := horderly.memory.setCell hstage _
  tidy := horderly.tidy
  ids := horderly.ids

/-- A disciplined step keeps the pool and its waits orderly. -/
theorem orderly_step (hpos : 0 < workers) (horderly : futures.Orderly workers)
    (hdisciplined : futures.Disciplined event) (hstep : futures.step event = some next) :
    next.Orderly workers := by
  have hcalls := holdsCalls_step horderly.calls hstep
  have hextends := extends_step hstep
  have hready : ∀ call ∈ futures.calls,
      next.pool.threads[call.thread]?.any Thread.isWorker = true →
      Completed next.pool.memory.states call.state := by
    intro call hcall hworker
    rw [any_isWorker_step hstep] at hworker
    exact (horderly.ready call hcall hworker).persists hextends
  cases stepped_of_step hstep with
  | pool event pool hfree hpool =>
      obtain ⟨hobeys, hnotifies, hannounces⟩ := hdisciplined
      exact ⟨horderly.pool.step hpos hobeys hnotifies hannounces hpool, hcalls, hready⟩
  | noState => exact ⟨horderly.pool, hcalls, horderly.ready⟩
  | access thread state access stage hfree huser hstage hreturned =>
      refine ⟨orderly_retrieve horderly.pool hstage, hcalls, ?_⟩
      exact List.forall_mem_cons.mpr
        ⟨fun hworker => Completed.persists (hdisciplined hworker) hextends, hready⟩
  | ready thread call stage completion hcall hstage hpromise =>
      refine ⟨horderly.pool, hcalls, fun other hother => ?_⟩
      exact hready other (List.mem_filter.mp hother).1

theorem start_orderly (workers callers : ℕ) :
    (start workers callers : Futures Fn Value Error).Orderly workers where
  pool := Pool.start_orderly workers callers
  calls := by constructor <;> simp [start]
  ready := by simp [start]

end Futures

end RpcDemo.Threadpool
