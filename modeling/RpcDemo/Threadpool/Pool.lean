import Mathlib.Algebra.Group.Nat.Defs
import Mathlib.Algebra.Ring.Int.Defs
import RpcDemo.Core.Transition
import RpcDemo.Threadpool.SharedState

/-!
# The thread pool

Workers and callers step one atomic operation or one critical section at a
time.  A thread inside the pool's code has at most one active call and a stack
of frames that wait for it; with no active call the function of the user on top
of the stack runs, and may call the pool, return or throw.  Mutexes held over
more than one step are those of the two condition variables, between the check
of the predicate and the blocking; a notification reaches the threads blocked at
that moment only.  The counter `unfinished_` is an integer here, so that an
underflow would show.
-/

namespace RpcDemo.Threadpool

/-- An exception of the user's code, the `std::bad_alloc` of a queue that cannot grow,
the one a promise throws that already has its result, or the `std::system_error` of a
`join()` of the own thread. -/
inductive Thrown (Error : Type)
  | user (error : Error)
  | badAlloc
  | promiseAlreadySatisfied
  | resourceDeadlock
  deriving DecidableEq

/-- What a function returned, `none` for `void`, or the exception it threw. -/
abbrev Completion (Value Error : Type) := Except (Thrown Error) (Option Value)

/-- The `continuation` lambda of `then_impl`: it takes the result of one shared
state and completes the next. -/
structure Continuation (Fn : Type) where
  upstream : ℕ
  next : ℕ
  func : Fn
  deriving DecidableEq

/-- What a package or a continuation slot holds: a user function, the lambda of
`post`, that of `then_impl`, and the one that submits the latter to the pool. -/
inductive Callable (Fn : Type)
  | detached (fn : Fn)
  | promised (state : ℕ) (fn : Fn)
  | continuation (cont : Continuation Fn)
  | submit (cont : Continuation Fn)
  deriving DecidableEq

/-- A task with its number among all tasks made. -/
structure Package (Fn : Type) where
  id : ℕ
  callable : Callable Fn
  deriving DecidableEq

/-- Which call made a shared state. -/
inductive Origin (Fn : Type)
  | posted (fn : Fn)
  | attached (upstream : ℕ) (fn : Fn)
  deriving DecidableEq

/-- A shared state; `returned` once the call that made it has returned its
future. -/
structure Stage (Fn Value Error : Type) where
  cell : SharedState (Completion Value Error) (Callable Fn)
  origin : Origin Fn
  returned : Bool
  deriving DecidableEq

/-- The points of `post_detach`, and of `post` after its state is made. -/
inductive EnqueuePoint
  | pick
  | count (victim : ℕ)
  | push (victim : ℕ)
  | notify
  deriving DecidableEq

inductive AttachPoint
  | getFuture
  | setContinuation
  deriving DecidableEq

/-- The points of a wait on a condition variable; the mutex is held at
`checked`. -/
inductive WaitPoint
  | check
  | checked
  | blocked
  deriving DecidableEq

/-- The points of `shutdown`; the destructor starts at `test`. -/
inductive ShutdownPoint
  | test
  | store
  | notify
  | join
  deriving DecidableEq

/-- A call inside the pool's code.  `recover` is the `set_exception` of a catch
block whose `set_value` threw. -/
inductive Active (Fn Value Error : Type)
  | enqueue (package : Package Fn) (point : EnqueuePoint)
  | thenImpl (cont : Continuation Fn) (inlineExec : Bool) (point : AttachPoint)
  | get (cont : Continuation Fn)
  | complete (state : ℕ) (completion : Completion Value Error)
  | recover (state : ℕ) (error : Thrown Error)
  | wait (point : WaitPoint)
  | shutdown (point : ShutdownPoint)
  deriving DecidableEq

/-- A frame below the active call: a user function, with the state its result is
for; the rest of a try block whose `set_value` runs a continuation; and the
rest of a `then_impl`. -/
inductive Suspended (Fn Value : Type)
  | run (fn : Fn) (arg : Option Value) (state : Option ℕ)
  | trying (state : ℕ)
  | attached (cont : Continuation Fn)
  deriving DecidableEq

structure Code (Fn Value Error : Type) where
  active : Option (Active Fn Value Error)
  stack : List (Suspended Fn Value)
  deriving DecidableEq

/-- The points of `workThread`; `running` until the task has returned. -/
inductive WorkerPoint (Fn Value Error : Type)
  | loop
  | own
  | running (task : ℕ) (code : Code Fn Value Error)
  | notify
  | pick
  | steal (victim : ℕ)
  | wait (point : WaitPoint)
  | exited
  deriving DecidableEq

inductive Thread (Fn Value Error : Type)
  | caller (code : Code Fn Value Error)
  | worker (id : ℕ) (point : WorkerPoint Fn Value Error)
  deriving DecidableEq

/-- A run of a user function whose result completes a shared state. -/
structure Execution (Fn Value : Type) where
  state : ℕ
  func : Fn
  arg : Option Value
  deriving DecidableEq

/-- What has happened so far: tasks made, pushed, started, finished and lost to a
failed push; detached functions that threw; user functions run for a state, and
what they returned; continuations run and continuations ignored. -/
structure History (Fn Value Error : Type) where
  issued : ℕ
  pushed : List ℕ
  started : List ℕ
  finished : List ℕ
  lost : List (Package Fn)
  threw : List Fn
  ran : List (Execution Fn Value)
  results : List (Execution Fn Value × Completion Value Error)
  invoked : List ℕ
  ignored : List (Continuation Fn)
  deriving DecidableEq

/-- What the threads share. -/
structure Memory (Fn Value Error : Type) extends History Fn Value Error where
  queues : List (List (Package Fn))
  roundIndex : ℕ
  unfinished : ℤ
  shutdown : Bool
  lockTh : Bool
  lockWait : Bool
  exited : List ℕ
  terminated : Bool
  states : List (Stage Fn Value Error)
  deriving DecidableEq

structure Pool (Fn Value Error : Type) where
  memory : Memory Fn Value Error
  threads : List (Thread Fn Value Error)
  deriving DecidableEq

/-- A call of the pool's public members by user code. -/
inductive Op (Fn : Type)
  | postDetach (fn : Fn)
  | post (fn : Fn)
  | attach (upstream : ℕ) (fn : Fn) (inlineExec : Bool)
  | wait
  | shutdown
  | destroy
  deriving DecidableEq

/-- What a thread does next: user code calls the pool or finishes, the pool's
code makes its next step, a `notify_one` picks a thread, a push throws. -/
inductive Move (Fn Value Error : Type)
  | call (op : Op Fn)
  | finish (completion : Completion Value Error)
  | turn
  | notifyOne (woken : ℕ)
  | fail (error : Thrown Error)
  deriving DecidableEq

/-- Whom a step notifies. -/
inductive Signal
  | quiet
  | oneWorker (woken : ℕ)
  | allWorkers
  | waiters
  deriving DecidableEq

variable {Fn Value Error : Type}

namespace Memory

def setState (memory : Memory Fn Value Error) (state : ℕ) (stage : Stage Fn Value Error) :
    Memory Fn Value Error :=
  { memory with states := memory.states.set state stage }

def setCell (memory : Memory Fn Value Error) (state : ℕ) (stage : Stage Fn Value Error)
    (cell : SharedState (Completion Value Error) (Callable Fn)) : Memory Fn Value Error :=
  memory.setState state { stage with cell := cell }

/-- The call that made the state returns its future. -/
def markReturned (memory : Memory Fn Value Error) (state : ℕ) : Memory Fn Value Error :=
  { memory with states := memory.states.modify state fun stage => { stage with returned := true } }

/-- `post` returns the future of its state; `post_detach` returns nothing. -/
def returnPosted (memory : Memory Fn Value Error) : Callable Fn → Memory Fn Value Error
  | .promised state _ => memory.markReturned state
  | _ => memory

@[simp]
theorem setCell_toHistory (memory : Memory Fn Value Error) (state : ℕ)
    (stage : Stage Fn Value Error) (cell : SharedState (Completion Value Error) (Callable Fn)) :
    (memory.setCell state stage cell).toHistory = memory.toHistory := rfl

@[simp]
theorem markReturned_toHistory (memory : Memory Fn Value Error) (state : ℕ) :
    (memory.markReturned state).toHistory = memory.toHistory := rfl

@[simp]
theorem returnPosted_toHistory (memory : Memory Fn Value Error) (callable : Callable Fn) :
    (memory.returnPosted callable).toHistory = memory.toHistory := by
  cases callable <;> rfl

@[simp]
theorem returnPosted_queues (memory : Memory Fn Value Error) (callable : Callable Fn) :
    (memory.returnPosted callable).queues = memory.queues := by
  cases callable <;> rfl

@[simp]
theorem returnPosted_unfinished (memory : Memory Fn Value Error) (callable : Callable Fn) :
    (memory.returnPosted callable).unfinished = memory.unfinished := by
  cases callable <;> rfl

/-- `round_index_.fetch_add(1)`, a `size_t`. -/
def advanceRound (memory : Memory Fn Value Error) : Memory Fn Value Error :=
  { memory with roundIndex := (memory.roundIndex + 1) % 2 ^ 64 }

@[simp]
theorem advanceRound_toHistory (memory : Memory Fn Value Error) :
    memory.advanceRound.toHistory = memory.toHistory := rfl

@[simp]
theorem advanceRound_states (memory : Memory Fn Value Error) :
    memory.advanceRound.states = memory.states := rfl

def victim (memory : Memory Fn Value Error) : ℕ :=
  memory.roundIndex % memory.queues.length

end Memory

namespace Code

/-- No call, no frame: the thread's own code, or a task that has returned. -/
def idle : Code Fn Value Error := ⟨none, []⟩

/-- Stack unwinding: a try block catches, and so may a user function. -/
def raise (error : Thrown Error) : List (Suspended Fn Value) → Option (Code Fn Value Error)
  | [] => none
  | .trying state :: stack => some ⟨some (.recover state error), stack⟩
  | .run fn arg state :: stack => some ⟨none, .run fn arg state :: stack⟩
  | .attached _ :: stack => raise error stack

end Code

/-- What an action leaves: the thread's code, `none` when an exception escapes
it, the memory, and whom it notifies. -/
structure Effect (Fn Value Error : Type) where
  code : Option (Code Fn Value Error)
  memory : Memory Fn Value Error
  signal : Signal

namespace Effect

def next (memory : Memory Fn Value Error) (code : Code Fn Value Error) :
    Effect Fn Value Error :=
  ⟨some code, memory, .quiet⟩

/-- The active call returns to the frame below it. -/
def returns (memory : Memory Fn Value Error) (stack : List (Suspended Fn Value)) :
    Effect Fn Value Error :=
  next memory ⟨none, stack⟩

def throws (memory : Memory Fn Value Error) (stack : List (Suspended Fn Value))
    (error : Thrown Error) : Effect Fn Value Error :=
  ⟨Code.raise error stack, memory, .quiet⟩

end Effect

namespace Code

/-- Call a callable on top of a stack. -/
def invoke (memory : Memory Fn Value Error) (stack : List (Suspended Fn Value)) :
    Callable Fn → Code Fn Value Error × Memory Fn Value Error
  | .detached fn => (⟨none, .run fn none none :: stack⟩, memory)
  | .promised state fn =>
      (⟨none, .run fn none (some state) :: stack⟩,
        { memory with ran := memory.ran ++ [⟨state, fn, none⟩] })
  | .continuation cont =>
      (⟨some (.get cont), stack⟩, { memory with invoked := memory.invoked ++ [cont.next] })
  | .submit cont =>
      (⟨some (.enqueue ⟨memory.issued, .continuation cont⟩ .pick), stack⟩,
        { memory with issued := memory.issued + 1 })

/-- Run the continuation a section has extracted, if it has one. -/
def invokeExtracted (memory : Memory Fn Value Error) (stack : List (Suspended Fn Value)) :
    Option (Callable Fn) → Effect Fn Value Error
  | none => .returns memory stack
  | some callable => .next (invoke memory stack callable).2 (invoke memory stack callable).1

def enqueue (memory : Memory Fn Value Error) (stack : List (Suspended Fn Value))
    (package : Package Fn) : EnqueuePoint → Move Fn Value Error → Option (Effect Fn Value Error)
  | .pick, .turn =>
      some (.next memory.advanceRound ⟨some (.enqueue package (.count memory.victim)), stack⟩)
  | .count victim, .turn =>
      some (.next { memory with unfinished := memory.unfinished + 1 }
        ⟨some (.enqueue package (.push victim)), stack⟩)
  | .push victim, .turn =>
      memory.queues[victim]?.map fun queue =>
        .next { memory with
            queues := memory.queues.set victim (package :: queue)
            pushed := memory.pushed ++ [package.id] }
          ⟨some (.enqueue package .notify), stack⟩
  | .push _, .fail error =>
      some (.throws { memory with lost := memory.lost ++ [package] } stack error)
  | .notify, .notifyOne woken =>
      some ⟨some ⟨none, stack⟩, memory.returnPosted package.callable, .oneWorker woken⟩
  | _, _ => none

/-- The callable `then_impl` hands to `set_continuation`. -/
def attachment (cont : Continuation Fn) (inlineExec : Bool) : Callable Fn :=
  if inlineExec then .continuation cont else .submit cont

def thenImpl (memory : Memory Fn Value Error) (stack : List (Suspended Fn Value))
    (cont : Continuation Fn) (inlineExec : Bool) : AttachPoint → Option (Effect Fn Value Error)
  | .getFuture =>
      memory.states[cont.upstream]?.map fun stage =>
        .next (memory.setCell cont.upstream stage stage.cell.getFuture)
          ⟨some (.thenImpl cont inlineExec .setContinuation), stack⟩
  | .setContinuation =>
      memory.states[cont.upstream]?.map fun stage =>
        match stage.cell.setContinuation (attachment cont inlineExec) with
        | (_, .ignored) =>
            .returns { memory with ignored := memory.ignored ++ [cont] }
              (.attached cont :: stack)
        | (cell, .stored) =>
            .returns (memory.setCell cont.upstream stage cell) (.attached cont :: stack)
        | (_, .execute callable) =>
            invokeExtracted memory (.attached cont :: stack) (some callable)

/-- `current_future.get()` in the continuation, which blocks until the upstream
state is completed, and then the call of `func`. -/
def get (memory : Memory Fn Value Error) (stack : List (Suspended Fn Value))
    (cont : Continuation Fn) : Option (Effect Fn Value Error) :=
  memory.states[cont.upstream]?.bind fun stage =>
    stage.cell.promise.map fun
      | .ok value =>
          .next { memory with ran := memory.ran ++ [⟨cont.next, cont.func, value⟩] }
            ⟨none, .run cont.func value (some cont.next) :: stack⟩
      | .error error => .next memory ⟨some (.complete cont.next (.error error)), stack⟩

/-- `set_value` is called inside a try block, `set_exception` in its catch. -/
def tryBlock (state : ℕ) (stack : List (Suspended Fn Value)) :
    Completion Value Error → List (Suspended Fn Value)
  | .ok _ => .trying state :: stack
  | .error _ => stack

/-- An exception of `set_value` is caught, one of `set_exception` is not. -/
def refuse (memory : Memory Fn Value Error) (stack : List (Suspended Fn Value)) (state : ℕ) :
    Completion Value Error → Effect Fn Value Error
  | .ok _ => .next memory ⟨some (.recover state .promiseAlreadySatisfied), stack⟩
  | .error _ => .throws memory stack .promiseAlreadySatisfied

def complete (memory : Memory Fn Value Error) (stack : List (Suspended Fn Value)) (state : ℕ)
    (completion : Completion Value Error) : Option (Effect Fn Value Error) :=
  memory.states[state]?.map fun stage =>
    match stage.cell.complete completion with
    | some (cell, cont) =>
        invokeExtracted (memory.setCell state stage cell) (tryBlock state stack completion) cont
    | none => refuse memory stack state completion

def recover (memory : Memory Fn Value Error) (stack : List (Suspended Fn Value)) (state : ℕ)
    (error : Thrown Error) : Option (Effect Fn Value Error) :=
  memory.states[state]?.map fun stage =>
    match stage.cell.complete (.error error) with
    | some (cell, cont) => invokeExtracted (memory.setCell state stage cell) stack cont
    | none => .throws memory stack .promiseAlreadySatisfied

/-- `wait()` of the pool. -/
def wait (memory : Memory Fn Value Error) (stack : List (Suspended Fn Value)) :
    WaitPoint → Option (Effect Fn Value Error)
  | .check =>
      if memory.lockWait then none
      else if memory.unfinished = 0 then some (.returns memory stack)
      else some (.next { memory with lockWait := true } ⟨some (.wait .checked), stack⟩)
  | .checked => some (.next { memory with lockWait := false } ⟨some (.wait .blocked), stack⟩)
  | .blocked => none

def shutdown (memory : Memory Fn Value Error) (stack : List (Suspended Fn Value)) :
    ShutdownPoint → Option (Effect Fn Value Error)
  | .test =>
      if memory.shutdown then some (.returns memory stack)
      else some (.next memory ⟨some (.shutdown .store), stack⟩)
  | .store => some (.next { memory with shutdown := true } ⟨some (.shutdown .notify), stack⟩)
  | .notify => some ⟨some ⟨some (.shutdown .join), stack⟩, memory, .allWorkers⟩
  | .join =>
      if memory.exited.length = memory.queues.length then some (.returns memory stack) else none

/-- The next step of an active call. -/
def advance (memory : Memory Fn Value Error) (stack : List (Suspended Fn Value)) :
    Active Fn Value Error → Option (Effect Fn Value Error)
  | .enqueue package point => enqueue memory stack package point .turn
  | .thenImpl cont inlineExec point => thenImpl memory stack cont inlineExec point
  | .get cont => get memory stack cont
  | .complete state completion => complete memory stack state completion
  | .recover state error => recover memory stack state error
  | .wait point => wait memory stack point
  | .shutdown point => shutdown memory stack point

/-- The return of a frame of the pool's code whose callee has returned. -/
def unwind (memory : Memory Fn Value Error) :
    List (Suspended Fn Value) → Option (Effect Fn Value Error)
  | .trying _ :: stack => some (.returns memory stack)
  | .attached cont :: stack => some (.returns (memory.markReturned cont.next) stack)
  | _ => none

/-- The user function on top of the stack returns or throws. -/
def finish (memory : Memory Fn Value Error) (completion : Completion Value Error) :
    List (Suspended Fn Value) → Option (Effect Fn Value Error)
  | .run fn arg (some state) :: stack =>
      some (.next { memory with results := memory.results ++ [(⟨state, fn, arg⟩, completion)] }
        ⟨some (.complete state completion), stack⟩)
  | .run fn _ none :: stack =>
      match completion with
      | .ok _ => some (.returns memory stack)
      | .error error => some (.throws { memory with threw := memory.threw ++ [fn] } stack error)
  | _ => none

/-- User code calls the pool.  A future can be used once it was returned. -/
def call (memory : Memory Fn Value Error) (stack : List (Suspended Fn Value)) :
    Op Fn → Option (Effect Fn Value Error)
  | .postDetach fn =>
      some (.next { memory with issued := memory.issued + 1 }
        ⟨some (.enqueue ⟨memory.issued, .detached fn⟩ .pick), stack⟩)
  | .post fn =>
      some (.next { memory with
          issued := memory.issued + 1
          states := memory.states ++ [⟨.fresh, .posted fn, false⟩] }
        ⟨some (.enqueue ⟨memory.issued, .promised memory.states.length fn⟩ .pick), stack⟩)
  | .attach upstream fn inlineExec =>
      if memory.states[upstream]?.any Stage.returned then
        some (.next { memory with
            states := memory.states ++ [⟨.fresh, .attached upstream fn, false⟩] }
          ⟨some (.thenImpl ⟨upstream, memory.states.length, fn⟩ inlineExec .getFuture), stack⟩)
      else none
  | .wait => some (.next memory ⟨some (.wait .check), stack⟩)
  | .shutdown => some (.next memory ⟨some (.shutdown .store), stack⟩)
  | .destroy => some (.next memory ⟨some (.shutdown .test), stack⟩)

/-- User code is on top: a function of the user, or the thread's own. -/
def isUser : List (Suspended Fn Value) → Bool
  | [] => true
  | .run _ _ _ :: _ => true
  | _ => false

def act (memory : Memory Fn Value Error) :
    Code Fn Value Error → Move Fn Value Error → Option (Effect Fn Value Error)
  | ⟨some active, stack⟩, .turn => advance memory stack active
  | ⟨some (.enqueue package point), stack⟩, move => enqueue memory stack package point move
  | ⟨none, stack⟩, .turn => unwind memory stack
  | ⟨none, stack⟩, .finish completion => finish memory completion stack
  | ⟨none, stack⟩, .call op => if isUser stack then call memory stack op else none
  | _, _ => none

/-- A task that shuts the pool down joins the workers in turn; when it comes to its own
thread, `join()` throws into the function that called.  A destructor called by a task
is no different here, though it would end the program. -/
def joinSelf (memory : Memory Fn Value Error) (id : ℕ) :
    Code Fn Value Error → Move Fn Value Error → Option (Effect Fn Value Error)
  | ⟨some (.shutdown .join), .run fn arg state :: stack⟩, .turn =>
      if ∀ lower < id, lower ∈ memory.exited then
        some (.throws memory (.run fn arg state :: stack) .resourceDeadlock)
      else none
  | _, _ => none

end Code

/-- What a step of a thread leaves. -/
structure Progress (Fn Value Error : Type) where
  thread : Thread Fn Value Error
  memory : Memory Fn Value Error
  signal : Signal

namespace Thread

/-- A worker runs a task it has taken off a queue. -/
def startTask (memory : Memory Fn Value Error) (id : ℕ) (package : Package Fn) :
    Progress Fn Value Error :=
  let invoked := Code.invoke { memory with started := memory.started ++ [package.id] } []
    package.callable
  ⟨.worker id (.running package.id invoked.1), invoked.2, .quiet⟩

def waitTurn (memory : Memory Fn Value Error) (id : ℕ) :
    WaitPoint → Option (Progress Fn Value Error)
  | .check =>
      if memory.lockTh then none
      else if memory.shutdown = true ∨ 0 < memory.unfinished then
        some ⟨.worker id .loop, memory, .quiet⟩
      else some ⟨.worker id (.wait .checked), { memory with lockTh := true }, .quiet⟩
  | .checked => some ⟨.worker id (.wait .blocked), { memory with lockTh := false }, .quiet⟩
  | .blocked => none

/-- One step of `workThread` outside the task. -/
def workTurn (memory : Memory Fn Value Error) (id : ℕ) :
    WorkerPoint Fn Value Error → Option (Progress Fn Value Error)
  | .loop =>
      if memory.shutdown then
        some ⟨.worker id .exited, { memory with exited := memory.exited ++ [id] }, .quiet⟩
      else some ⟨.worker id .own, memory, .quiet⟩
  | .own =>
      memory.queues[id]?.map fun
        | package :: queue =>
            startTask { memory with queues := memory.queues.set id queue } id package
        | [] =>
            ⟨.worker id (if 1 < memory.queues.length then .pick else .wait .check), memory, .quiet⟩
  | .running task _ =>
      some ⟨.worker id .notify,
        { memory with
          unfinished := memory.unfinished - 1
          finished := memory.finished ++ [task] }, .quiet⟩
  | .notify => some ⟨.worker id .loop, memory, .waiters⟩
  | .pick =>
      let victim :=
        if memory.victim = id then (id + 1) % memory.queues.length else memory.victim
      some ⟨.worker id (.steal victim), memory.advanceRound, .quiet⟩
  | .steal victim =>
      memory.queues[victim]?.map fun queue =>
        match queue.getLast? with
        | some package =>
            startTask { memory with queues := memory.queues.set victim queue.dropLast } id package
        | none => ⟨.worker id (.wait .check), memory, .quiet⟩
  | .wait point => waitTurn memory id point
  | .exited => none

/-- A step of a task.  An exception that escapes into `workThread` terminates the
program. -/
def runTask (memory : Memory Fn Value Error) (id task : ℕ) (code : Code Fn Value Error)
    (move : Move Fn Value Error) : Option (Progress Fn Value Error) :=
  ((code.act memory move).or (code.joinSelf memory id move)).map fun effect =>
    match effect.code with
    | some after => ⟨.worker id (.running task after), effect.memory, effect.signal⟩
    | none =>
        ⟨.worker id (.running task .idle), { effect.memory with terminated := true }, effect.signal⟩

def act (memory : Memory Fn Value Error) :
    Thread Fn Value Error → Move Fn Value Error → Option (Progress Fn Value Error)
  | .caller code, move =>
      (code.act memory move).map fun effect =>
        ⟨.caller (effect.code.getD .idle), effect.memory, effect.signal⟩
  | .worker id (.running task ⟨none, []⟩), .turn =>
      workTurn memory id (.running task .idle)
  | .worker _ (.running _ ⟨none, []⟩), _ => none
  | .worker id (.running task code), move => runTask memory id task code move
  | .worker id point, .turn => workTurn memory id point
  | _, _ => none

/-- The task in the hands of a worker. -/
def task : Thread Fn Value Error → Option ℕ
  | .worker _ (.running task _) => some task
  | _ => none

/-- The calls and frames of a thread, those of `workThread` apart. -/
def code : Thread Fn Value Error → Code Fn Value Error
  | .caller code => code
  | .worker _ (.running _ code) => code
  | _ => .idle

def isBlocked : Thread Fn Value Error → Bool
  | .worker _ (.wait .blocked) => true
  | _ => false

/-- A notified worker checks its predicate again. -/
def wakeWorker : Thread Fn Value Error → Thread Fn Value Error
  | .worker id (.wait .blocked) => .worker id (.wait .check)
  | thread => thread

def wakeWaiter : Thread Fn Value Error → Thread Fn Value Error
  | .caller ⟨some (.wait .blocked), stack⟩ => .caller ⟨some (.wait .check), stack⟩
  | .worker id (.running task ⟨some (.wait .blocked), stack⟩) =>
      .worker id (.running task ⟨some (.wait .check), stack⟩)
  | thread => thread

end Thread

/-- A notification reaches the threads that are blocked, one of them or all. -/
def Signal.deliver (threads : List (Thread Fn Value Error)) :
    Signal → Option (List (Thread Fn Value Error))
  | .quiet => some threads
  | .oneWorker woken =>
      if threads.any Thread.isBlocked then
        if threads[woken]?.any Thread.isBlocked then
          some (threads.modify woken Thread.wakeWorker)
        else none
      else some threads
  | .allWorkers => some (threads.map Thread.wakeWorker)
  | .waiters => some (threads.map Thread.wakeWaiter)

structure Event (Fn Value Error : Type) where
  thread : ℕ
  move : Move Fn Value Error
  deriving DecidableEq

/-- A thread makes some steps of the pool's code. -/
def turns (thread count : ℕ) : List (Event Fn Value Error) :=
  List.replicate count ⟨thread, .turn⟩

namespace Pool

/-- A pool of `workers` workers, used by `callers` other threads. -/
def start (workers callers : ℕ) : Pool Fn Value Error where
  memory :=
    { queues := List.replicate workers []
      roundIndex := 0
      unfinished := 0
      shutdown := false
      lockTh := false
      lockWait := false
      exited := []
      terminated := false
      states := []
      issued := 0
      pushed := []
      started := []
      finished := []
      lost := []
      threw := []
      ran := []
      results := []
      invoked := []
      ignored := [] }
  threads :=
    (List.range workers).map (fun id => .worker id .loop) ++
      List.replicate callers (.caller .idle)

/-- One thread makes its next step; a terminated program makes none. -/
def step (pool : Pool Fn Value Error) (event : Event Fn Value Error) :
    Option (Pool Fn Value Error) :=
  if pool.memory.terminated then none
  else
    pool.threads[event.thread]?.bind fun thread =>
      (thread.act pool.memory event.move).bind fun progress =>
        (progress.signal.deliver (pool.threads.set event.thread progress.thread)).map fun threads =>
          ⟨progress.memory, threads⟩

end Pool

end RpcDemo.Threadpool
