import RpcDemo.Threadpool.Refinement

/-!
# The work that is left

How many steps the pool can still make without a new call of user code, as far as
they do something: the code under way, the queued tasks and the stored
continuations, each with the steps it leads to.  A worker that looks for a task
does nothing in this sense.  The end of a task wakes the threads in `wait()`, so a
task counts them.
-/

namespace RpcDemo.Threadpool

open Ledger

variable {Fn Value Error : Type}

/-! ## Loads -/

/-- The steps a callable leads to once it is called, in a program of so many threads. -/
def Callable.load (threads : ℕ) : Callable Fn → ℕ
  | .detached _ => 1
  | .promised _ _ => 3
  | .continuation _ => 4
  | .submit _ => 2 * threads + 11

/-- A queued task, which is taken, run, counted down and announced. -/
def Package.load (threads : ℕ) (package : Package Fn) : ℕ :=
  package.callable.load threads + (2 * threads + 3)

def EnqueuePoint.load : EnqueuePoint → ℕ
  | .pick => 4
  | .count _ => 3
  | .push _ => 2
  | .notify => 1

def AttachPoint.load : AttachPoint → ℕ
  | .getFuture => 3
  | .setContinuation => 2

def WaitPoint.load : WaitPoint → ℕ
  | .check => 2
  | .checked => 1
  | .blocked => 0

def ShutdownPoint.load : ShutdownPoint → ℕ
  | .test => 4
  | .store => 3
  | .notify => 2
  | .join => 1

def Active.load (threads : ℕ) : Active Fn Value Error → ℕ
  | .enqueue _ .notify => EnqueuePoint.load .notify
  | .enqueue package point => package.load threads + point.load
  | .thenImpl cont inlineExec point =>
      (Code.attachment cont inlineExec).load threads + point.load
  | .get _ => 4
  | .complete _ _ => 2
  | .recover _ _ => 1
  | .wait point => point.load
  | .shutdown point => point.load

def Suspended.load : Suspended Fn Value → ℕ
  | .run _ _ (some _) => 3
  | _ => 1

def Code.load (threads : ℕ) (code : Code Fn Value Error) : ℕ :=
  code.active.elim 0 (Active.load threads) + total Suspended.load code.stack

def Stage.load (threads : ℕ) (stage : Stage Fn Value Error) : ℕ :=
  stage.cell.continuation.elim 0 (Callable.load threads)

def Memory.load (threads : ℕ) (memory : Memory Fn Value Error) : ℕ :=
  total (total (Package.load threads)) memory.queues + total (Stage.load threads) memory.states

def Thread.load (threads : ℕ) : Thread Fn Value Error → ℕ
  | .caller code => code.load threads
  | .worker _ (.running _ code) => 2 * threads + 2 + code.load threads
  | .worker _ .notify => 2 * threads + 1
  | .worker _ _ => 0

def Pool.load (pool : Pool Fn Value Error) : ℕ :=
  total (Thread.load pool.threads.length) pool.threads +
    pool.memory.load pool.threads.length

/-- Neither a call of user code nor a push that throws. -/
def Move.goesOn : Move Fn Value Error → Bool
  | .call _ => false
  | .fail _ => false
  | _ => true

/-! ## What a step of code does to them -/

namespace Memory

variable {memory : Memory Fn Value Error} {state : ℕ} {stage : Stage Fn Value Error}

theorem load_setCell (threads : ℕ) (hstage : memory.states[state]? = some stage)
    (cell : SharedState (Completion Value Error) (Callable Fn)) :
    (memory.setCell state stage cell).load threads + stage.load threads =
      memory.load threads + Stage.load threads { stage with cell := cell } := by
  have hset : total (Stage.load threads) (memory.setCell state stage cell).states +
      stage.load threads =
        total (Stage.load threads) memory.states + Stage.load threads { stage with cell := cell } :=
    total_set _ hstage
  simp only [load]
  rw [add_assoc, hset, ← add_assoc]
  rfl

@[simp]
theorem load_markReturned (memory : Memory Fn Value Error) (threads state : ℕ) :
    (memory.markReturned state).load threads = memory.load threads := by
  have hstates : total (Stage.load threads) (memory.markReturned state).states =
      total (Stage.load threads) memory.states :=
    total_modify state fun _ => rfl
  simp only [load, hstates]
  rfl

@[simp]
theorem load_returnPosted (memory : Memory Fn Value Error) (threads : ℕ)
    (callable : Callable Fn) :
    (memory.returnPosted callable).load threads = memory.load threads := by
  cases callable with
  | promised state fn => exact load_markReturned memory threads state
  | _ => rfl

theorem load_push {threads victim : ℕ} {package : Package Fn} {queue : List (Package Fn)}
    {pushed : List ℕ} (hqueue : memory.queues[victim]? = some queue) :
    Memory.load threads { memory with
        queues := memory.queues.set victim (package :: queue)
        pushed := pushed } = memory.load threads + package.load threads := by
  have hset := total_set_cons (Package.load threads) package hqueue
  simp only [load, hset]
  exact add_right_comm _ _ _

end Memory

namespace Code

variable {memory : Memory Fn Value Error} {move : Move Fn Value Error}
variable {code : Code Fn Value Error} {effect : Effect Fn Value Error}

@[simp]
theorem load_idle (threads : ℕ) : (idle : Code Fn Value Error).load threads = 0 := rfl

@[simp]
theorem load_none (threads : ℕ) (stack : List (Suspended Fn Value)) :
    (⟨none, stack⟩ : Code Fn Value Error).load threads = total Suspended.load stack := by
  simp [load]

@[simp]
theorem load_some (threads : ℕ) (active : Active Fn Value Error)
    (stack : List (Suspended Fn Value)) :
    (⟨some active, stack⟩ : Code Fn Value Error).load threads =
      active.load threads + total Suspended.load stack := rfl

/-- A callable that is called becomes the steps it leads to. -/
theorem load_invoke (threads : ℕ) (memory : Memory Fn Value Error)
    (stack : List (Suspended Fn Value)) (callable : Callable Fn) :
    (invoke memory stack callable).1.load threads =
        callable.load threads + total Suspended.load stack ∧
      (invoke memory stack callable).2.load threads = memory.load threads := by
  cases callable with
  | detached fn | promised state fn | continuation cont =>
      refine ⟨?_, rfl⟩
      simp only [invoke, load_none, load_some, total_cons]
      rfl
  | submit cont =>
      simp only [invoke, load_some]
      refine ⟨?_, rfl⟩
      simp only [Active.load, Package.load, Callable.load, EnqueuePoint.load]
      omega

theorem load_invokeExtracted (threads : ℕ) (memory : Memory Fn Value Error)
    (stack : List (Suspended Fn Value)) (cont : Option (Callable Fn)) :
    ((invokeExtracted memory stack cont).code.getD .idle).load threads +
        (invokeExtracted memory stack cont).memory.load threads =
      cont.elim 0 (Callable.load threads) + total Suspended.load stack + memory.load threads := by
  cases cont with
  | none => simp [invokeExtracted, Effect.returns, Effect.next]
  | some callable =>
      obtain ⟨hcode, hmemory⟩ := load_invoke threads memory stack callable
      simp only [invokeExtracted, Effect.next, Option.getD_some, hcode, hmemory, Option.elim_some]

/-- An exception leaves fewer frames. -/
theorem load_raise (threads : ℕ) (error : Thrown Error) (stack : List (Suspended Fn Value)) :
    ((raise error stack).getD .idle).load threads ≤ total Suspended.load stack := by
  induction stack with
  | nil => exact le_rfl
  | cons frame stack ih =>
      cases frame with
      | run fn arg state => exact (load_none threads _).le
      | trying state =>
          simp only [raise, Option.getD_some, load_some, total_cons]
          exact le_rfl
      | attached cont =>
          rw [total_cons]
          exact ih.trans (Nat.le_add_left _ _)

theorem load_acted (threads : ℕ) (hacted : Acted memory code move effect)
    (hmove : move.goesOn = true) :
    (effect.code.getD .idle).load threads + effect.memory.load threads <
      code.load threads + memory.load threads := by
  cases hacted with
  | fail | postDetach | post | attach | wait | callShutdown | callDestroy =>
      simp [Move.goesOn] at hmove
  | push package stack victim queue hqueue =>
      simp only [Effect.next, Option.getD_some, load_some, Memory.load_push hqueue, Active.load,
        EnqueuePoint.load]
      omega
  | notify package stack woken =>
      simp only [Option.getD_some, load_none, load_some, Memory.load_returnPosted, Active.load,
        EnqueuePoint.load]
      omega
  | attached cont stack =>
      simp only [Effect.returns, Effect.next, Option.getD_some, load_none, total_cons,
        Memory.load_markReturned, Suspended.load]
      omega
  | getFuture cont inlineExec stack stage hstage =>
      have hcell := Memory.load_setCell threads hstage stage.cell.getFuture
      have hsame : Stage.load threads { stage with cell := stage.cell.getFuture } =
          stage.load threads := rfl
      simp only [Effect.next, Option.getD_some, load_some, Active.load, AttachPoint.load]
      omega
  | stored cont inlineExec stack stage hstage hset hcompleted =>
      have hcell := Memory.load_setCell threads hstage
        (stage.cell.store (attachment cont inlineExec))
      have hslot : Stage.load threads
          { stage with cell := stage.cell.store (attachment cont inlineExec) } =
            (attachment cont inlineExec).load threads := rfl
      simp only [Effect.returns, Effect.next, Option.getD_some, load_none, load_some, total_cons,
        Active.load, AttachPoint.load, Suspended.load]
      omega
  | execute cont inlineExec stack stage hstage hset hcompleted =>
      have hextracted := load_invokeExtracted threads memory (.attached cont :: stack)
        (some (attachment cont inlineExec))
      simp only [Option.elim_some, total_cons, Suspended.load] at hextracted
      simp only [load_some, Active.load, AttachPoint.load]
      omega
  | complete state completion stack stage hstage hpromise =>
      have hextracted := load_invokeExtracted threads
        (memory.setCell state stage (stage.cell.settle completion))
        (tryBlock state stack completion) stage.cell.continuation
      have hcell := Memory.load_setCell threads hstage (stage.cell.settle completion)
      have hslot : Stage.load threads { stage with cell := stage.cell.settle completion } = 0 := rfl
      have htry : total Suspended.load (tryBlock state stack completion) ≤
          total Suspended.load stack + 1 := by
        cases completion with
        | ok value => exact (Nat.add_comm _ _).le
        | error error => exact Nat.le_add_right _ _
      rw [hslot, add_zero, Stage.load] at hcell
      simp only [load_some, Active.load]
      omega
  | recover state error stack stage hstage hpromise =>
      have hextracted := load_invokeExtracted threads
        (memory.setCell state stage (stage.cell.settle (.error error))) stack
        stage.cell.continuation
      have hcell := Memory.load_setCell threads hstage
        (stage.cell.settle (.error error))
      have hslot : Stage.load threads { stage with cell := stage.cell.settle (.error error) } = 0 :=
        rfl
      rw [hslot, add_zero, Stage.load] at hcell
      simp only [load_some, Active.load]
      omega
  | escape state error stack =>
      have hraise := load_raise threads (.promiseAlreadySatisfied : Thrown Error) stack
      simp only [Effect.throws, load_some, Active.load]
      omega
  | joinSelf id fn arg state stack =>
      have hraise := load_raise threads (.resourceDeadlock : Thrown Error)
        (.run fn arg state :: stack)
      simp only [Effect.throws, load_some, Active.load, ShutdownPoint.load]
      omega
  | throwDetached fn arg stack error =>
      have hraise := load_raise threads error stack
      simp only [Effect.throws, load_none, total_cons, Suspended.load, Memory.load]
      omega
  | refuse state completion stack =>
      have hraise := load_raise threads (.promiseAlreadySatisfied : Thrown Error) stack
      cases completion with
      | ok value =>
          simp only [refuse, Effect.next, Option.getD_some, load_some, Active.load]
          omega
      | error error =>
          simp only [refuse, Effect.throws, load_some, Active.load]
          omega
  | _ =>
      simp only [Effect.next, Effect.returns, Option.getD_some, load_none, load_some, total_cons,
        Active.load, EnqueuePoint.load, AttachPoint.load, WaitPoint.load, ShutdownPoint.load,
        Suspended.load, Memory.load, Memory.advanceRound]
      omega

/-- No code of a task or a caller wakes the threads in `wait()`. -/
theorem signal_acted (hacted : Acted memory code move effect) : effect.signal ≠ .waiters := by
  cases hacted with
  | execute | complete | recover =>
      unfold invokeExtracted
      split <;> simp [Effect.returns, Effect.next]
  | refuse state completion => cases completion <;> simp [refuse, Effect.next, Effect.throws]
  | _ => simp [Effect.returns, Effect.next, Effect.throws]

end Code

/-! ## What a step of a thread does to them -/

namespace Thread

variable {memory : Memory Fn Value Error} {move : Move Fn Value Error}
variable {thread : Thread Fn Value Error} {progress : Progress Fn Value Error}

@[simp]
theorem load_wakeWorker (thread : Thread Fn Value Error) (threads : ℕ) :
    thread.wakeWorker.load threads = thread.load threads := by
  unfold wakeWorker
  split <;> rfl

theorem load_wakeWaiter_le (thread : Thread Fn Value Error) (threads : ℕ) :
    thread.wakeWaiter.load threads ≤ thread.load threads + 2 := by
  unfold wakeWaiter
  split
  · simp only [load, Code.load_some, Active.load, WaitPoint.load]
    omega
  · simp only [load, Code.load_some, Active.load, WaitPoint.load]
    omega
  · exact Nat.le_add_right _ _

/-- Taking a task off a queue. -/
theorem load_startTask (id : ℕ) {threads : ℕ} {package : Package Fn}
    {queues : List (List (Package Fn))}
    (hqueues : total (total (Package.load threads)) queues + package.load threads =
      total (total (Package.load threads)) memory.queues) :
    let progress := startTask { memory with queues := queues } id package
    progress.thread.load threads + progress.memory.load threads < memory.load threads := by
  obtain ⟨hcode, hmemory⟩ := Code.load_invoke threads { memory with
    queues := queues
    started := memory.started ++ [package.id] } [] package.callable
  have htaken : Memory.load threads { memory with
      queues := queues
      started := memory.started ++ [package.id] } + package.load threads =
        memory.load threads := by
    rw [Memory.load, Memory.load, ← hqueues]
    exact add_right_comm _ _ _
  simp only [startTask, Thread.load, hcode, hmemory, total_nil]
  rw [Package.load] at htaken
  omega

/-- The looks of a worker for a task are no work. -/
def searches (queues : List (List (Package Fn))) : Thread Fn Value Error → Bool
  | .worker _ .loop => true
  | .worker id .own => queues[id]?.all List.isEmpty
  | .worker _ .pick => true
  | .worker _ (.steal victim) => queues[victim]?.all List.isEmpty
  | .worker _ (.wait _) => true
  | .worker _ .exited => true
  | _ => false

/-- A step that is no look for a task lowers the load, by enough for the threads it
wakes. -/
theorem load_acted (threads : ℕ) (hacted : thread.Acted memory move progress)
    (hmove : move.goesOn = true) (hworks : thread.searches memory.queues = false) :
    progress.thread.load threads + progress.memory.load threads +
        (if progress.signal = .waiters then 2 * threads else 0) <
      thread.load threads + memory.load threads := by
  cases hacted with
  | caller code _ effect hacted =>
      have hcode := Code.load_acted threads hacted hmove
      rw [if_neg (Code.signal_acted hacted), add_zero]
      exact hcode
  | task id task code after _ memory' signal hbusy hacted =>
      have hcode := Code.load_acted threads hacted hmove
      rw [if_neg (Code.signal_acted hacted), add_zero]
      simp only [load, Option.getD_some] at hcode ⊢
      omega
  | terminate id task code _ memory' signal hacted =>
      have hcode := Code.load_acted threads hacted hmove
      rw [if_neg (Code.signal_acted hacted), add_zero]
      simp only [load, Option.getD_none, Memory.load] at hcode ⊢
      omega
  | finishTask id task =>
      simp only [load, Memory.load, Code.load_idle, reduceCtorEq, if_false]
      omega
  | notify id =>
      simp only [load, if_true]
      omega
  | popFront id package queue hqueue =>
      have hstart := load_startTask id (total_set_tail (Package.load threads) hqueue)
      simpa [startTask, load] using hstart
  | popBack id victim package queue hqueue =>
      have hstart := load_startTask id (total_set_dropLast (Package.load threads) hqueue)
      simpa [startTask, load] using hstart
  | ownEmpty id hqueue => simp [searches, hqueue] at hworks
  | stealEmpty id victim hqueue => simp [searches, hqueue] at hworks
  | _ => simp [searches] at hworks

end Thread

/-! ## What a step of the pool does to them -/

/-- A notification adds to the load of the threads it wakes from `wait()` only. -/
theorem Signal.load_deliver_le {signal : Signal} {threads woken : List (Thread Fn Value Error)}
    (size : ℕ) (hdeliver : signal.deliver threads = some woken) :
    total (Thread.load size) woken ≤ total (Thread.load size) threads +
      (if signal = .waiters then 2 * threads.length else 0) := by
  have hsame : total (Thread.load size) woken = total (Thread.load size) threads →
      total (Thread.load size) woken ≤ total (Thread.load size) threads +
        (if signal = .waiters then 2 * threads.length else 0) := by
    intro heq
    rw [heq]
    exact Nat.le_add_right _ _
  have hwake : ∀ thread : Thread Fn Value Error, thread.wakeWorker.load size = thread.load size :=
    fun thread => thread.load_wakeWorker size
  cases signal with
  | quiet =>
      obtain rfl := Option.some.inj hdeliver
      exact hsame rfl
  | oneWorker index =>
      simp only [deliver] at hdeliver
      split at hdeliver
      · split at hdeliver
        · obtain rfl := Option.some.inj hdeliver
          exact hsame (total_modify index hwake)
        · simp at hdeliver
      · obtain rfl := Option.some.inj hdeliver
        exact hsame rfl
  | allWorkers =>
      obtain rfl := Option.some.inj hdeliver
      exact hsame (total_map hwake)
  | waiters =>
      obtain rfl := Option.some.inj hdeliver
      rw [if_pos rfl, total_comp]
      calc
        total (fun thread => thread.wakeWaiter.load size) threads ≤
            total (fun thread => thread.load size + 2) threads :=
          List.sum_le_sum fun thread _ => thread.load_wakeWaiter_le size
        _ = total (Thread.load size) threads + 2 * threads.length := by
          rw [total_add, ← total_one, Nat.mul_comm]
          simp [total]

theorem Signal.length_deliver {signal : Signal} {threads woken : List (Thread Fn Value Error)}
    (hdeliver : signal.deliver threads = some woken) : woken.length = threads.length := by
  rw [← total_one, ← total_one]
  exact total_deliver (fun _ => rfl) (fun _ => rfl) hdeliver

namespace Pool

variable {pool next : Pool Fn Value Error} {event : Event Fn Value Error}
variable {thread : Thread Fn Value Error} {progress : Progress Fn Value Error}

theorem Stepped.length_threads (hstepped : pool.Stepped event next thread progress) :
    next.threads.length = pool.threads.length := by
  rw [Signal.length_deliver hstepped.threads, List.length_set]

theorem load_step (hstepped : pool.Stepped event next thread progress)
    (hmove : event.move.goesOn = true)
    (hworks : thread.searches pool.memory.queues = false) : next.load < pool.load := by
  have hacted := Thread.load_acted pool.threads.length hstepped.acted hmove hworks
  have hset : total (Thread.load pool.threads.length)
      (pool.threads.set event.thread progress.thread) + thread.load pool.threads.length =
        total (Thread.load pool.threads.length) pool.threads +
          progress.thread.load pool.threads.length := total_set _ hstepped.found
  have hwoken := Signal.load_deliver_le pool.threads.length hstepped.threads
  rw [List.length_set] at hwoken
  rw [load, load, hstepped.length_threads, hstepped.memory]
  omega

end Pool

end RpcDemo.Threadpool
