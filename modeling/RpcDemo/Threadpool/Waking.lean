import RpcDemo.Threadpool.Refinement

/-!
# Sleeping and waking

What the two condition variables see of the pool: the role each thread plays at
its point of the code, and the few shared values the predicates and the waits
depend on.  Every step of a thread is one of the moves of a role.
-/

namespace RpcDemo.Threadpool

open Ledger

variable {Fn Value Error : Type}

/-- `posting` and `closing` are about to notify the workers, `announcing` is a
worker about to notify the threads in `wait()`. -/
inductive Role
  | awake
  | posting
  | closing
  | announcing
  | waiting (point : WaitPoint)
  | sleeping (point : WaitPoint)
  deriving DecidableEq

/-- The shared values that the predicates and the notifications depend on. -/
structure Gate where
  workers : ℕ
  tasks : ℕ
  unfinished : ℤ
  shutdown : Bool
  lockTh : Bool
  lockWait : Bool

def Memory.gate (memory : Memory Fn Value Error) : Gate :=
  ⟨memory.queues.length, memory.queues.flatten.length, memory.unfinished, memory.shutdown,
    memory.lockTh, memory.lockWait⟩

def Code.role (code : Code Fn Value Error) : Role :=
  match code.active with
  | some (.enqueue _ .notify) => .posting
  | some (.shutdown .notify) => .closing
  | some (.wait point) => .waiting point
  | _ => .awake

def Thread.role : Thread Fn Value Error → Role
  | .caller code => code.role
  | .worker _ (.running _ code) => code.role
  | .worker _ .notify => .announcing
  | .worker _ (.wait point) => .sleeping point
  | .worker _ _ => .awake

def Thread.isWorker : Thread Fn Value Error → Bool
  | .caller _ => false
  | .worker _ _ => true

/-- What a step does to the role of its thread and to the shared values. -/
inductive Role.Moves (gate : Gate) (isWorker : Bool) : Role → Role → Gate → Signal → Prop
  | work : Moves gate isWorker .awake .awake gate .quiet
  | count : Moves gate isWorker .awake .awake
      { gate with unfinished := gate.unfinished + 1 } .quiet
  | push : Moves gate isWorker .awake .posting { gate with tasks := gate.tasks + 1 } .quiet
  | post (woken : ℕ) : Moves gate isWorker .posting .awake gate (.oneWorker woken)
  | close : Moves gate isWorker .awake .closing { gate with shutdown := true } .quiet
  | notifyAll : Moves gate isWorker .closing .awake gate .allWorkers
  | wait : Moves gate isWorker .awake (.waiting .check) gate .quiet
  | waitDone (hlock : gate.lockWait = false) (hdone : gate.unfinished = 0) :
      Moves gate isWorker (.waiting .check) .awake gate .quiet
  | waitCheck (hlock : gate.lockWait = false) (hbusy : gate.unfinished ≠ 0) :
      Moves gate isWorker (.waiting .check) (.waiting .checked)
        { gate with lockWait := true } .quiet
  | waitBlock :
      Moves gate isWorker (.waiting .checked) (.waiting .blocked) { gate with lockWait := false }
        .quiet
  | take (hworker : isWorker = true) (htasks : gate.tasks ≠ 0) :
      Moves gate isWorker .awake .awake { gate with tasks := gate.tasks - 1 } .quiet
  | finish (hworker : isWorker = true) :
      Moves gate isWorker .awake .announcing { gate with unfinished := gate.unfinished - 1 } .quiet
  | announce (hworker : isWorker = true) : Moves gate isWorker .announcing .awake gate .waiters
  | rest (hworker : isWorker = true) :
      Moves gate isWorker .awake (.sleeping .check) gate .quiet
  | resume (hworker : isWorker = true) :
      Moves gate isWorker (.sleeping .check) .awake gate .quiet
  | check (hworker : isWorker = true) (hlock : gate.lockTh = false)
      (hshutdown : gate.shutdown = false) (hidle : gate.unfinished ≤ 0) :
      Moves gate isWorker (.sleeping .check) (.sleeping .checked)
        { gate with lockTh := true } .quiet
  | block (hworker : isWorker = true) :
      Moves gate isWorker (.sleeping .checked) (.sleeping .blocked) { gate with lockTh := false }
        .quiet

/-! ## Every step is a move -/

namespace Code

variable {memory : Memory Fn Value Error} {move : Move Fn Value Error}

@[simp]
theorem role_none (stack : List (Suspended Fn Value)) :
    (⟨none, stack⟩ : Code Fn Value Error).role = .awake := rfl

theorem gate_invoke (memory : Memory Fn Value Error) (stack : List (Suspended Fn Value))
    (callable : Callable Fn) : (invoke memory stack callable).2.gate = memory.gate := by
  cases callable <;> rfl

theorem role_invoke (memory : Memory Fn Value Error) (stack : List (Suspended Fn Value))
    (callable : Callable Fn) : (invoke memory stack callable).1.role = .awake := by
  cases callable <;> rfl

theorem role_raise (error : Thrown Error) (stack : List (Suspended Fn Value)) :
    ((raise error stack).getD .idle).role = .awake := by
  induction stack with
  | nil => rfl
  | cons frame stack ih =>
      cases frame with
      | attached cont => exact ih
      | _ => rfl

theorem gate_push {victim : ℕ} {queue : List (Package Fn)} (package : Package Fn)
    (hqueue : memory.queues[victim]? = some queue) :
    Memory.gate { memory with
        queues := memory.queues.set victim (package :: queue)
        pushed := memory.pushed ++ [package.id] } =
      { memory.gate with tasks := memory.gate.tasks + 1 } := by
  have hset := total_set_cons (fun _ => 1) package hqueue
  simp only [← total_flatten, total_one] at hset
  simp only [Memory.gate, hset, List.length_set]

theorem moves_invokeExtracted (isWorker : Bool) {memory' : Memory Fn Value Error}
    (stack : List (Suspended Fn Value)) (cont : Option (Callable Fn))
    (hgate : memory'.gate = memory.gate) :
    Role.Moves memory.gate isWorker .awake
      ((invokeExtracted memory' stack cont).code.getD .idle).role
      (invokeExtracted memory' stack cont).memory.gate
      (invokeExtracted memory' stack cont).signal := by
  cases cont with
  | none => exact hgate ▸ .work
  | some callable =>
      have hrole := role_invoke memory' stack callable
      have hinvoke := gate_invoke memory' stack callable
      simp only [invokeExtracted, Effect.next, Option.getD_some, hrole, hinvoke, hgate]
      exact .work

theorem moves_throws (isWorker : Bool) {memory' : Memory Fn Value Error}
    (stack : List (Suspended Fn Value)) (error : Thrown Error)
    (hgate : memory'.gate = memory.gate) :
    Role.Moves memory.gate isWorker .awake
      ((Effect.throws memory' stack error).code.getD .idle).role
      (Effect.throws memory' stack error).memory.gate
      (Effect.throws memory' stack error).signal := by
  simp only [Effect.throws, role_raise, hgate]
  exact .work

/-- Every step of a code moves its role as `Moves` allows. -/
theorem moves_of_acted (isWorker : Bool) {code : Code Fn Value Error}
    {effect : Effect Fn Value Error} (hacted : Acted memory code move effect) :
    Role.Moves memory.gate isWorker code.role (effect.code.getD .idle).role effect.memory.gate
      effect.signal := by
  cases hacted with
  | count package stack victim => exact .count
  | push package stack victim queue hqueue =>
      simp only [Effect.next, gate_push package hqueue]
      exact .push
  | notify package stack woken =>
      have hgate : (memory.returnPosted package.callable).gate = memory.gate := by
        cases package.callable <;> rfl
      simp only [hgate]
      exact .post woken
  | shutdown stack => exact .close
  | notifyAll stack => exact .notifyAll
  | wait stack huser => exact .wait
  | waitDone stack hlock hdone => exact .waitDone hlock hdone
  | waitCheck stack hlock hbusy => exact .waitCheck hlock hbusy
  | waitBlock stack => exact .waitBlock
  | execute | complete | recover => exact moves_invokeExtracted isWorker _ _ rfl
  | fail | escape | throwDetached => exact moves_throws isWorker _ _ rfl
  | refuse state completion stack =>
      cases completion with
      | ok value => exact .work
      | error error => exact moves_throws isWorker stack _ rfl
  | _ => exact .work

end Code

namespace Thread

variable {memory : Memory Fn Value Error} {move : Move Fn Value Error}
variable {thread : Thread Fn Value Error} {progress : Progress Fn Value Error}

/-- A worker that takes a task off a queue is one task nearer to an empty pool. -/
theorem moves_startTask {id : ℕ} {package : Package Fn} {queues : List (List (Package Fn))}
    (hthread : thread.role = .awake) (hworker : thread.isWorker = true)
    (hworkers : queues.length = memory.queues.length)
    (htasks : queues.flatten.length + 1 = memory.queues.flatten.length) :
    let progress := startTask { memory with queues := queues } id package
    Role.Moves memory.gate thread.isWorker thread.role progress.thread.role progress.memory.gate
      progress.signal := by
  have hgate : (startTask { memory with queues := queues } id package).memory.gate =
      { memory.gate with tasks := memory.gate.tasks - 1 } := by
    simp only [startTask, Code.gate_invoke]
    simp only [Memory.gate, hworkers, ← htasks, Nat.add_sub_cancel]
  have hrole : (startTask { memory with queues := queues } id package).thread.role = .awake :=
    Code.role_invoke _ _ _
  simp only [hthread, hgate, hrole]
  refine .take hworker ?_
  simp only [Memory.gate]
  omega

/-- Every step of a thread moves its role as `Moves` allows. -/
theorem moves_of_acted (hacted : thread.Acted memory move progress) :
    Role.Moves memory.gate thread.isWorker thread.role progress.thread.role progress.memory.gate
      progress.signal := by
  cases hacted with
  | caller code _ effect hacted => exact Code.moves_of_acted false hacted
  | task id task code after _ memory' signal hbusy hacted => exact Code.moves_of_acted true hacted
  | terminate id task code _ memory' signal hacted => exact Code.moves_of_acted true hacted
  | finishTask id task => exact .finish rfl
  | exit id hshutdown => exact .work
  | loop id hshutdown => exact .work
  | popFront id package queue hqueue =>
      have hset := total_set_tail (fun _ => 1) hqueue
      simp only [← total_flatten, total_one] at hset
      exact moves_startTask rfl rfl List.length_set hset
  | ownEmpty id hqueue =>
      simp only
      split
      · exact .work
      · exact .rest rfl
  | notify id => exact .announce rfl
  | pick id victim => exact .work
  | popBack id victim package queue hqueue =>
      have hset := total_set_dropLast (fun _ => 1) hqueue
      simp only [← total_flatten, total_one] at hset
      exact moves_startTask rfl rfl List.length_set hset
  | stealEmpty id victim hqueue => exact .rest rfl
  | resume id hlock hready => exact .resume rfl
  | check id hlock hshutdown hidle => exact .check rfl hlock hshutdown hidle
  | block id => exact .block rfl

theorem isWorker_of_acted (hacted : thread.Acted memory move progress) :
    progress.thread.isWorker = thread.isWorker := by
  cases hacted <;> rfl

end Thread

/-! ## Counting the roles -/

/-- The numbers the wake-up arguments are about. -/
inductive Count
  | ready
  | checked
  | blocked
  | posting
  | closing
  | announcing
  | waitChecked
  | waitBlocked

def Role.counts (isWorker : Bool) (role : Role) : Count → ℕ
  | .ready =>
      match role with
      | .sleeping .checked => 0
      | .sleeping .blocked => 0
      | _ => isWorker.toNat
  | .checked => match role with | .sleeping .checked => 1 | _ => 0
  | .blocked => match role with | .sleeping .blocked => 1 | _ => 0
  | .posting => match role with | .posting => 1 | _ => 0
  | .closing => match role with | .closing => 1 | _ => 0
  | .announcing => match role with | .announcing => 1 | _ => 0
  | .waitChecked => match role with | .waiting .checked => 1 | _ => 0
  | .waitBlocked => match role with | .waiting .blocked => 1 | _ => 0

def Thread.counts (count : Count) (thread : Thread Fn Value Error) : ℕ :=
  thread.role.counts thread.isWorker count

/-- The number over all threads. -/
def tally (threads : List (Thread Fn Value Error)) (count : Count) : ℕ :=
  total (Thread.counts count) threads

theorem Code.counts_blocked (code : Code Fn Value Error) (isWorker : Bool) :
    code.role.counts isWorker .blocked = 0 := by
  unfold role
  split <;> rfl

section Deliver

variable {threads woken : List (Thread Fn Value Error)}

theorem Thread.counts_wakeWorker (thread : Thread Fn Value Error) (count : Count) :
    thread.wakeWorker.counts count =
      match count with
      | .ready => thread.counts .ready + thread.counts .blocked
      | .blocked => 0
      | count => thread.counts count := by
  have hsame : thread.wakeWorker = thread → thread.counts .blocked = 0 →
      thread.wakeWorker.counts count =
        match count with
        | .ready => thread.counts .ready + thread.counts .blocked
        | .blocked => 0
        | count => thread.counts count := by
    intro hwake hblocked
    rw [hwake, hblocked]
    cases count <;> first | rfl | exact hblocked
  cases thread with
  | caller code => exact hsame rfl (code.counts_blocked false)
  | worker id point =>
      cases point with
      | running task code => exact hsame rfl (code.counts_blocked true)
      | wait point => cases point <;> cases count <;> rfl
      | _ => exact hsame rfl rfl

/-- A code is blocked in `wait()`, or waking the waiters leaves its thread as it is. -/
theorem Code.blocked_or (code : Code Fn Value Error) :
    (∃ stack, code = ⟨some (.wait .blocked), stack⟩) ∨
      (Thread.caller code).wakeWaiter = .caller code ∧
        (∀ id task, (Thread.worker id (.running task code)).wakeWaiter =
          .worker id (.running task code)) ∧
        ∀ isWorker, code.role.counts isWorker .waitBlocked = 0 := by
  obtain ⟨active, stack⟩ := code
  cases active with
  | none => exact .inr ⟨rfl, fun _ _ => rfl, fun _ => rfl⟩
  | some active =>
      cases active with
      | wait point =>
          cases point with
          | blocked => exact .inl ⟨stack, rfl⟩
          | _ => exact .inr ⟨rfl, fun _ _ => rfl, fun _ => rfl⟩
      | enqueue package point =>
          cases point <;> exact .inr ⟨rfl, fun _ _ => rfl, fun _ => rfl⟩
      | shutdown point => cases point <;> exact .inr ⟨rfl, fun _ _ => rfl, fun _ => rfl⟩
      | _ => exact .inr ⟨rfl, fun _ _ => rfl, fun _ => rfl⟩

theorem Thread.counts_wakeWaiter (thread : Thread Fn Value Error) (count : Count) :
    thread.wakeWaiter.counts count =
      match count with
      | .waitBlocked => 0
      | count => thread.counts count := by
  have hsame : thread.wakeWaiter = thread → thread.counts .waitBlocked = 0 →
      thread.wakeWaiter.counts count =
        match count with
        | .waitBlocked => 0
        | count => thread.counts count := by
    intro hwake hblocked
    rw [hwake]
    cases count <;> first | rfl | exact hblocked
  cases thread with
  | caller code =>
      rcases code.blocked_or with ⟨stack, rfl⟩ | ⟨hcaller, _, hcounts⟩
      · cases count <;> rfl
      · exact hsame hcaller (hcounts false)
  | worker id point =>
      cases point with
      | running task code =>
          rcases code.blocked_or with ⟨stack, rfl⟩ | ⟨_, hworker, hcounts⟩
          · cases count <;> rfl
          · exact hsame (hworker id task) (hcounts true)
      | wait point => cases point <;> exact hsame rfl rfl
      | _ => exact hsame rfl rfl

theorem Thread.counts_isBlocked (thread : Thread Fn Value Error) :
    thread.counts .blocked = thread.isBlocked.toNat := by
  cases thread with
  | caller code => exact code.counts_blocked false
  | worker id point =>
      cases point with
      | running task code => exact code.counts_blocked true
      | wait point => cases point <;> rfl
      | _ => rfl

/-- `notify_all` on the workers' condition variable. -/
theorem tally_allWorkers (hdeliver : Signal.allWorkers.deliver threads = some woken)
    (count : Count) :
    tally woken count =
      match count with
      | .ready => tally threads .ready + tally threads .blocked
      | .blocked => 0
      | count => tally threads count := by
  obtain rfl := Option.some.inj hdeliver
  simp only [tally, total_comp, Thread.counts_wakeWorker]
  cases count <;> simp only [total_add, total_zero]

theorem tally_waiters (hdeliver : Signal.waiters.deliver threads = some woken) (count : Count) :
    tally woken count =
      match count with
      | .waitBlocked => 0
      | count => tally threads count := by
  obtain rfl := Option.some.inj hdeliver
  simp only [tally, total_comp, Thread.counts_wakeWaiter]
  cases count <;> simp only [total_zero]

/-- `notify_one` wakes a blocked worker, when there is one. -/
theorem tally_oneWorker {index : ℕ}
    (hdeliver : (Signal.oneWorker index).deliver threads = some woken) :
    (tally threads .blocked = 0 ∧ woken = threads) ∨
      (tally woken .blocked + 1 = tally threads .blocked ∧
        tally woken .ready = tally threads .ready + 1 ∧
        ∀ count, count ≠ .ready → count ≠ .blocked → tally woken count = tally threads count) := by
  simp only [Signal.deliver] at hdeliver
  split at hdeliver
  case isTrue hany =>
    split at hdeliver
    case isTrue hwoken =>
      right
      obtain rfl := Option.some.inj hdeliver
      obtain ⟨thread, hthread, hblocked⟩ := (Option.any_eq_true _ _).mp hwoken
      have hone : thread.counts .blocked = 1 := by rw [Thread.counts_isBlocked, hblocked]; rfl
      have hmodify : ∀ count, tally (threads.modify index Thread.wakeWorker) count +
          thread.counts count = tally threads count + thread.wakeWorker.counts count :=
        fun count => total_modify_of_get hthread
      have hready := hmodify .ready
      have hgone := hmodify .blocked
      simp only [Thread.counts_wakeWorker, hone] at hready hgone
      refine ⟨by omega, by omega, fun count hne hne' => ?_⟩
      have hother := hmodify count
      rw [Thread.counts_wakeWorker] at hother
      cases count with
      | ready => exact absurd rfl hne
      | blocked => exact absurd rfl hne'
      | _ => exact Nat.add_right_cancel hother
    case isFalse => simp at hdeliver
  case isFalse hnone =>
    left
    obtain rfl := Option.some.inj hdeliver
    refine ⟨total_eq_zero fun thread hthread => ?_, rfl⟩
    rw [Thread.counts_isBlocked]
    simp_all

end Deliver

namespace Pool

variable {pool next : Pool Fn Value Error} {event : Event Fn Value Error}
variable {thread : Thread Fn Value Error} {progress : Progress Fn Value Error}

/-- The acting thread's change of role is the change of the counts, before anyone
is notified. -/
theorem Stepped.tally_acted (hstepped : pool.Stepped event next thread progress) (count : Count) :
    tally (pool.threads.set event.thread progress.thread) count +
        thread.role.counts thread.isWorker count =
      tally pool.threads count + progress.thread.role.counts thread.isWorker count := by
  have hworker := Thread.isWorker_of_acted hstepped.acted
  have hset : total (Thread.counts count) (pool.threads.set event.thread progress.thread) +
      Thread.counts count thread =
        total (Thread.counts count) pool.threads + Thread.counts count progress.thread :=
    total_set progress.thread hstepped.found
  rwa [Thread.counts, Thread.counts, hworker] at hset

theorem Stepped.counts_le (hstepped : pool.Stepped event next thread progress) (count : Count) :
    progress.thread.role.counts thread.isWorker count ≤
      tally (pool.threads.set event.thread progress.thread) count := by
  have hmem : progress.thread ∈ pool.threads.set event.thread progress.thread :=
    List.mem_set (List.getElem?_eq_some_iff.mp hstepped.found).1 _
  have hle : Thread.counts count progress.thread ≤
      tally (pool.threads.set event.thread progress.thread) count := le_total hmem
  rwa [Thread.counts, Thread.isWorker_of_acted hstepped.acted] at hle

theorem tally_start (workers callers : ℕ) (count : Count) :
    tally (start workers callers : Pool Fn Value Error).threads count =
      match count with
      | .ready => workers
      | _ => 0 := by
  rw [tally, total_start workers callers (by cases count <;> rfl)]
  cases count with
  | ready => exact total_one.trans List.length_range
  | _ => exact total_zero _

end Pool

end RpcDemo.Threadpool
