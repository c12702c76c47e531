import Mathlib.Algebra.Order.Group.Multiset
import RpcDemo.Threadpool.Bag

/-!
# The pool refines the bag

Every step of a thread is a run of changes of the bag of the whole pool.
-/

namespace RpcDemo.Threadpool

open Ledger Transition

variable {Fn Value Error : Type} {move : Move Fn Value Error}

namespace Memory

variable {memory : Memory Fn Value Error}

theorem bag_setCell {state : ℕ} {stage : Stage Fn Value Error}
    (hstage : memory.states[state]? = some stage)
    (cell : SharedState (Completion Value Error) (Callable Fn)) :
    (memory.setCell state stage cell).bag + stage.bag =
      memory.bag + Stage.bag { stage with cell := cell } := by
  have hset : total Stage.bag (memory.states.set state { stage with cell := cell }) + stage.bag =
      total Stage.bag memory.states + Stage.bag { stage with cell := cell } :=
    total_set _ hstage
  simp only [bag, setCell, setState, add_assoc, hset]

theorem bag_push {victim : ℕ} {queue : List (Package Fn)} (package : Package Fn)
    (hqueue : memory.queues[victim]? = some queue) :
    Memory.bag { memory with
        queues := memory.queues.set victim (package :: queue)
        pushed := memory.pushed ++ [package.id] } =
      memory.bag + {.package package} := by
  have hset := total_set_cons (fun package => ({.package package} : Bag Fn Value Error))
    package hqueue
  simp only [bag, hset]
  abel

theorem bag_markReturned (memory : Memory Fn Value Error) (state : ℕ) :
    (memory.markReturned state).bag = memory.bag := by
  have hstates : total Stage.bag (memory.markReturned state).states =
      total Stage.bag memory.states := total_modify state fun _ => rfl
  simp only [bag, hstates]
  rfl

theorem bag_append (memory : Memory Fn Value Error) (issued : ℕ) (origin : Origin Fn) :
    Memory.bag { memory with
        issued := issued
        states := memory.states ++ [⟨.fresh, origin, false⟩] } = memory.bag := by
  simp [bag, Stage.bag, SharedState.fresh]

theorem bag_returnPosted (memory : Memory Fn Value Error) (callable : Callable Fn) :
    (memory.returnPosted callable).bag = memory.bag := by
  cases callable with
  | promised state fn => exact bag_markReturned memory state
  | detached fn => rfl
  | continuation cont => rfl
  | submit cont => rfl

end Memory

namespace Code

variable {memory memory' : Memory Fn Value Error} {stack : List (Suspended Fn Value)}

/-- A change on top of the stack that leaves queues and slots alone. -/
theorem changes_top {removed added : List (Item Fn Value Error)} {code after : Code Fn Value Error}
    (hchange : Change move memory removed added memory')
    (hcode : code.bag = (↑removed : Bag Fn Value Error) + frames stack)
    (hafter : after.bag = (↑added : Bag Fn Value Error) + frames stack)
    (hbag : memory'.bag = memory.bag) :
    Config.Changes move ⟨code.bag + memory.bag, memory⟩ ⟨after.bag + memory'.bag, memory'⟩ := by
  refine hchange.between (frames stack + memory.bag) ?_ ?_
  · rw [hcode]
    abel
  · rw [hafter, hbag]
    abel

/-- Calling a callable on top of a stack. -/
theorem changes_invoke (move : Move Fn Value Error) (memory : Memory Fn Value Error)
    (stack : List (Suspended Fn Value)) (callable : Callable Fn) :
    Config.Changes move ⟨frames stack + memory.bag + {.callable callable}, memory⟩
      ⟨(invoke memory stack callable).1.bag + (invoke memory stack callable).2.bag,
        (invoke memory stack callable).2⟩ := by
  have hbecome : ∀ {added memory'} {code : Code Fn Value Error},
      Change move memory [.callable callable] added memory' →
      code.bag = (↑added : Bag Fn Value Error) + frames stack → memory'.bag = memory.bag →
      Config.Changes move ⟨frames stack + memory.bag + {.callable callable}, memory⟩
        ⟨code.bag + memory'.bag, memory'⟩ := by
    intro added memory' code hchange hcode hbag
    apply hchange.between (frames stack + memory.bag) rfl
    rw [hcode, hbag]
    abel
  cases callable with
  | detached fn => exact hbecome (.runDetached move memory fn) (bag_none _) rfl
  | promised state fn => exact hbecome (.runPromised move memory state fn) (bag_none _) rfl
  | continuation cont => exact hbecome (.runContinuation move memory cont) rfl rfl
  | submit cont => exact hbecome (.submit move memory cont) rfl rfl

theorem changes_invokeExtracted (move : Move Fn Value Error) (memory : Memory Fn Value Error)
    (stack : List (Suspended Fn Value)) (cont : Option (Callable Fn)) :
    Config.Changes move
      ⟨frames stack + memory.bag +
        ((cont.toList.map .callable : List (Item Fn Value Error)) : Bag Fn Value Error), memory⟩
      ⟨((invokeExtracted memory stack cont).code.getD .idle).bag +
        (invokeExtracted memory stack cont).memory.bag,
        (invokeExtracted memory stack cont).memory⟩ := by
  cases cont with
  | none =>
      simp only [invokeExtracted, Effect.returns, Effect.next, Option.getD_some, bag_none,
        Option.toList_none, List.map_nil, Multiset.coe_nil, add_zero]
      exact .refl
  | some callable => exact changes_invoke move memory stack callable

/-- Unwinding a stack. -/
theorem changes_raise (move : Move Fn Value Error) (memory : Memory Fn Value Error)
    (error : Thrown Error) (stack : List (Suspended Fn Value)) :
    Config.Changes move ⟨frames stack + memory.bag + {.thrown error}, memory⟩
      ⟨((raise error stack).getD .idle).bag + memory.bag, memory⟩ := by
  induction stack with
  | nil =>
      refine (Change.land move memory error).between (frames [] + memory.bag) rfl ?_
      rw [Multiset.coe_nil, add_zero]
      rfl
  | cons frame stack ih =>
      cases frame with
      | run fn arg state =>
          refine (Change.land move memory error).between
            (frames (.run fn arg state :: stack) + memory.bag) rfl ?_
          simp [raise]
      | trying state =>
          refine (Change.rescue move memory state error).between (frames stack + memory.bag) ?_ ?_
          · rw [frames_cons, ← Multiset.cons_coe, Multiset.coe_singleton, ← Multiset.singleton_add]
            abel
          · simp only [raise, Option.getD_some, bag_some, Active.bag, Multiset.coe_singleton]
            abel
      | attached cont =>
          have hleave : Config.Changes move
              ⟨frames (.attached cont :: stack) + memory.bag + {.thrown error}, memory⟩
              ⟨frames stack + memory.bag + {.thrown error}, memory⟩ := by
            refine (Change.leave move memory cont error).between (frames stack + memory.bag) ?_ rfl
            rw [frames_cons, ← Multiset.cons_coe, Multiset.coe_singleton, ← Multiset.singleton_add]
            abel
          exact hleave.trans ih

/-- The continuation leaves its slot as the promise takes the result. -/
theorem bag_settle {state : ℕ} {stage : Stage Fn Value Error}
    (hstage : memory.states[state]? = some stage) (completion : Completion Value Error) :
    (memory.setCell state stage (stage.cell.settle completion)).bag + stage.bag = memory.bag := by
  rw [Memory.bag_setCell hstage]
  exact add_zero memory.bag

/-- Taking a continuation out of its slot and calling it. -/
theorem changes_settle {state : ℕ} {stage : Stage Fn Value Error}
    {completion : Completion Value Error} {active : Active Fn Value Error}
    {stack : List (Suspended Fn Value)} (above : List (Suspended Fn Value))
    (hstage : memory.states[state]? = some stage)
    (hactive : active.bag = {.active active})
    (hchange : Change move memory (.active active :: stage.cell.continuation.toList.map .slot)
      (above.map .frame ++ stage.cell.continuation.toList.map .callable)
      (memory.setCell state stage (stage.cell.settle completion))) :
    let effect := invokeExtracted (memory.setCell state stage (stage.cell.settle completion))
      (above ++ stack) stage.cell.continuation
    Config.Changes move ⟨active.bag + frames stack + memory.bag, memory⟩
      ⟨(effect.code.getD .idle).bag + effect.memory.bag, effect.memory⟩ := by
  have hsettle := bag_settle hstage completion
  refine Relation.ReflTransGen.trans ?_ (changes_invokeExtracted move _ (above ++ stack) _)
  refine hchange.between
    (frames stack + (memory.setCell state stage (stage.cell.settle completion)).bag) ?_ ?_
  · rw [hactive, ← hsettle, Stage.bag, ← Multiset.cons_coe, ← Multiset.singleton_add]
    abel
  · rw [frames, List.map_append, ← Multiset.coe_add, ← Multiset.coe_add]
    simp only [frames]
    abel

theorem changes_throw {memory' : Memory Fn Value Error} {code : Code Fn Value Error}
    {removed : List (Item Fn Value Error)} {error : Thrown Error}
    (hchange : Change move memory removed [.thrown error] memory')
    (hcode : code.bag = (↑removed : Bag Fn Value Error) + frames stack)
    (hbag : memory'.bag = memory.bag) :
    Config.Changes move ⟨code.bag + memory.bag, memory⟩
      ⟨((raise error stack).getD .idle).bag + memory'.bag, memory'⟩ := by
  refine Relation.ReflTransGen.trans ?_ (changes_raise move memory' error stack)
  refine hchange.between (frames stack + memory.bag) ?_ ?_
  · rw [hcode]
    abel
  · rw [hbag]
    rfl

/-- Every step of a code is a run of changes. -/
theorem changes_of_acted {code : Code Fn Value Error} {effect : Effect Fn Value Error}
    (hacted : Acted memory code move effect) :
    Config.Changes move ⟨code.bag + memory.bag, memory⟩
      ⟨(effect.code.getD .idle).bag + effect.memory.bag, effect.memory⟩ := by
  cases hacted with
  | pick package stack => exact changes_top (.pick memory package memory.victim) rfl rfl rfl
  | count package stack victim => exact changes_top (.count memory package victim) rfl rfl rfl
  | push package stack victim queue hqueue =>
      have hpush := Memory.bag_push package hqueue
      refine (Change.push memory package victim queue hqueue).between
        (frames stack + memory.bag) ?_ ?_
      · rw [bag_some, Multiset.coe_singleton]
        simp only [Active.bag]
        abel
      · simp only [Effect.next, Option.getD_some, bag_some, Active.bag, hpush, ← Multiset.cons_coe,
          ← Multiset.singleton_add]
        abel
  | fail package stack victim error =>
      exact changes_throw (.fail memory package victim error) rfl rfl
  | notify package stack woken =>
      exact changes_top (.notify memory package woken) rfl (bag_none _)
        (Memory.bag_returnPosted memory package.callable)
  | getFuture cont inlineExec stack stage hstage =>
      exact changes_top (.getFuture memory cont inlineExec stage hstage) rfl rfl
        (add_right_cancel (Memory.bag_setCell hstage _))
  | ignored cont inlineExec stack stage hstage hset =>
      exact changes_top (.ignored memory cont inlineExec stage hstage hset) rfl (bag_none _) rfl
  | stored cont inlineExec stack stage hstage hset hcompleted =>
      have hsettle := bag_settle hstage (.ok none)
      have hstore : (memory.setCell cont.upstream stage
            (stage.cell.store (attachment cont inlineExec))).bag =
          (memory.setCell cont.upstream stage (stage.cell.settle (.ok none))).bag +
            {.slot (attachment cont inlineExec)} := by
        refine add_right_cancel (b := stage.bag) ?_
        rw [Memory.bag_setCell hstage, add_right_comm, hsettle]
        rfl
      refine (Change.stored memory cont inlineExec stage hstage hset hcompleted).between
        (frames stack +
          (memory.setCell cont.upstream stage (stage.cell.settle (.ok none))).bag) ?_ ?_
      · rw [bag_some, ← hsettle, Stage.bag, ← Multiset.cons_coe, ← Multiset.singleton_add]
        simp only [Active.bag]
        abel
      · simp only [Effect.returns, Effect.next, Option.getD_some, bag_none, frames_cons, hstore,
          ← Multiset.cons_coe, ← Multiset.singleton_add]
        abel
  | execute cont inlineExec stack stage hstage hset hcompleted =>
      refine Relation.ReflTransGen.trans ?_
        (changes_invokeExtracted _ memory (.attached cont :: stack)
          (some (attachment cont inlineExec)))
      refine (Change.execute memory cont inlineExec stage hstage hset hcompleted).between
        (frames stack + memory.bag) ?_ ?_
      · rw [bag_some, Multiset.coe_singleton]
        simp only [Active.bag]
        abel
      · simp only [frames_cons, Option.toList_some, List.map_cons, List.map_nil,
          ← Multiset.cons_coe, ← Multiset.singleton_add, Multiset.coe_nil]
        abel
  | getValue cont stack stage value hstage hpromise =>
      exact changes_top (.getValue memory cont stage value hstage hpromise) rfl (bag_none _) rfl
  | getError cont stack stage error hstage hpromise =>
      exact changes_top (.getError memory cont stage error hstage hpromise) rfl rfl rfl
  | complete state completion stack stage hstage hpromise =>
      have hchange := Change.complete memory state completion stage hstage hpromise
      have hstack : tryBlock state stack completion =
          tryBlock state [] completion ++ stack := by
        cases completion <;> rfl
      rw [hstack]
      exact changes_settle _ hstage rfl hchange
  | refuse state completion stack stage hstage hpromise =>
      cases completion with
      | ok value =>
          exact changes_top (.refuseValue memory state value stage hstage hpromise) rfl rfl rfl
      | error error =>
          exact changes_throw (.refuseError memory state error stage hstage hpromise) rfl rfl
  | recover state error stack stage hstage hpromise =>
      exact changes_settle [] hstage rfl (.recover memory state error stage hstage hpromise)
  | escape state error stack stage hstage hpromise =>
      exact changes_throw (.escape memory state error stage hstage hpromise) rfl rfl
  | waitDone stack hlock hdone =>
      simp only [Effect.returns, Effect.next, Option.getD_some, bag_none, bag_some, Active.bag,
        zero_add]
      exact .refl
  | waitCheck stack hlock hbusy => exact changes_top (.lockWait memory true) rfl rfl rfl
  | waitBlock stack => exact changes_top (.lockWait memory false) rfl rfl rfl
  | destroyed stack hshutdown => exact changes_top (.destroyed memory) rfl (bag_none _) rfl
  | destroy stack hshutdown => exact changes_top (.destroy memory) rfl rfl rfl
  | shutdown stack => exact changes_top (.shutdown memory) rfl rfl rfl
  | notifyAll stack => exact changes_top (.notifyAll memory) rfl rfl rfl
  | join stack hexited => exact changes_top (.join memory) rfl (bag_none _) rfl
  | joinSelf id fn arg state stack hlower =>
      exact changes_top (.join memory) rfl (bag_none _) rfl
  | tried state stack => exact changes_top (.tried memory state) (bag_none _) (bag_none _) rfl
  | attached cont stack =>
      exact changes_top (.attached memory cont) (bag_none _) (bag_none _)
        (Memory.bag_markReturned memory cont.next)
  | finish fn arg state stack completion =>
      exact changes_top (.finish memory fn arg state completion) (bag_none _) rfl rfl
  | finishDetached fn arg value stack =>
      exact changes_top (.finishDetached memory fn arg value) (bag_none _) (bag_none _) rfl
  | throwDetached fn arg stack error =>
      exact changes_throw (.throwDetached memory fn arg error) (bag_none _) rfl
  | postDetach fn stack huser => exact changes_top (.postDetach memory fn) (bag_none _) rfl rfl
  | post fn stack huser =>
      exact changes_top (.post memory fn) (bag_none _) rfl (Memory.bag_append memory _ _)
  | attach upstream fn inlineExec stack stage huser hstage hreturned =>
      exact changes_top (.attach memory upstream fn inlineExec stage hstage hreturned)
        (bag_none _) rfl (Memory.bag_append memory _ _)
  | wait stack huser =>
      simp only [Effect.next, Option.getD_some, bag_none, bag_some, Active.bag, zero_add]
      exact .refl
  | callShutdown stack huser => exact changes_top (.callShutdown memory) (bag_none _) rfl rfl
  | callDestroy stack huser => exact changes_top (.callDestroy memory) (bag_none _) rfl rfl

end Code

namespace Thread

variable {memory memory' : Memory Fn Value Error} {thread after : Thread Fn Value Error}

@[simp]
theorem bag_caller (code : Code Fn Value Error) : (caller code).bag = code.bag := by
  simp [bag, task, Thread.code]

@[simp]
theorem bag_running (id task : ℕ) (code : Code Fn Value Error) :
    (worker id (.running task code)).bag = {.task task} + code.bag := rfl

/-- A change that touches no item of the thread. -/
theorem changes_idle (hchange : Change move memory [] [] memory') (hthread : after.bag = thread.bag)
    (hbag : memory'.bag = memory.bag) :
    Config.Changes move ⟨thread.bag + memory.bag, memory⟩ ⟨after.bag + memory'.bag, memory'⟩ := by
  apply hchange.between (thread.bag + memory.bag) (add_zero _).symm
  rw [hthread, hbag]
  exact (add_zero _).symm

/-- Taking a package off a queue and calling it. -/
theorem changes_startTask {id : ℕ} {package : Package Fn} {queues : List (List (Package Fn))}
    (hthread : thread.bag = 0)
    (hchange : Change .turn memory [.package package]
      [.task package.id, .callable package.callable]
      { memory with queues := queues, started := memory.started ++ [package.id] })
    (hbag : Memory.bag { memory with
        queues := queues
        started := memory.started ++ [package.id] } + {.package package} = memory.bag) :
    let progress := startTask { memory with queues := queues } id package
    Config.Changes .turn ⟨thread.bag + memory.bag, memory⟩
      ⟨progress.thread.bag + progress.memory.bag, progress.memory⟩ := by
  have hinvoke := (Code.changes_invoke .turn { memory with
    queues := queues
    started := memory.started ++ [package.id] } [] package.callable).frame {.task package.id}
  simp only [startTask, bag_running, add_assoc]
  refine Relation.ReflTransGen.trans ?_ hinvoke
  refine hchange.between (Memory.bag { memory with
    queues := queues
    started := memory.started ++ [package.id] }) ?_ ?_
  · rw [hthread, zero_add, ← hbag, Multiset.coe_singleton]
  · simp only [frames_nil, zero_add, ← Multiset.cons_coe, ← Multiset.singleton_add]
    abel

theorem changes_of_acted {progress : Progress Fn Value Error}
    (hacted : thread.Acted memory move progress) :
    Config.Changes move ⟨thread.bag + memory.bag, memory⟩
      ⟨progress.thread.bag + progress.memory.bag, progress.memory⟩ := by
  cases hacted with
  | caller code _ effect hacted =>
      simp only [bag_caller]
      exact Code.changes_of_acted hacted
  | task id task code after _ memory' signal hbusy hacted =>
      simp only [bag_running, add_assoc]
      exact (Code.changes_of_acted hacted).frame _
  | terminate id task code _ memory' signal hacted =>
      have hcode := (Code.changes_of_acted hacted).frame {.task task}
      simp only [bag_running, add_assoc]
      apply hcode.trans
      refine (Change.terminate move memory').between ({.task task} + memory'.bag) ?_ ?_
      · simp only [Option.getD_none, Code.bag_idle, zero_add, Multiset.coe_nil, add_zero]
      · rw [Code.bag_idle, zero_add, Multiset.coe_nil, add_zero]
        rfl
  | finishTask id task =>
      refine (Change.finishTask memory task).between memory.bag ?_ ?_
      · rw [bag_running, Code.bag_idle, add_zero, add_comm, Multiset.coe_singleton]
      · exact add_comm _ _
  | exit id hshutdown => exact changes_idle (.exit memory id hshutdown) rfl rfl
  | loop id hshutdown => exact .refl
  | popFront id package queue hqueue =>
      have hset := total_set_tail (fun package => ({.package package} : Bag Fn Value Error)) hqueue
      apply changes_startTask rfl (.take memory package _ ⟨id, queue, .inl ⟨hqueue, rfl⟩⟩)
      simp only [Memory.bag, ← hset]
      abel
  | ownEmpty id hqueue =>
      have hbag : (worker id (if 1 < memory.queues.length then .pick else .wait .check) :
          Thread Fn Value Error).bag = (worker id .own).bag := by
        split <;> rfl
      exact changes_idle (.lockTh memory memory.lockTh) hbag rfl
  | notify id => exact .refl
  | pick id victim => exact changes_idle (.advanceRound memory) rfl rfl
  | popBack id victim package queue hqueue =>
      have hset := total_set_dropLast (fun package => ({.package package} : Bag Fn Value Error))
        hqueue
      apply changes_startTask rfl (.take memory package _ ⟨victim, queue, .inr ⟨hqueue, rfl⟩⟩)
      simp only [Memory.bag, ← hset]
      abel
  | stealEmpty id victim hqueue => exact .refl
  | resume id hlock hready => exact .refl
  | check id hlock hshutdown hidle => exact changes_idle (.lockTh memory true) rfl rfl
  | block id => exact changes_idle (.lockTh memory false) rfl rfl

theorem bag_wakeWorker (thread : Thread Fn Value Error) : thread.wakeWorker.bag = thread.bag := by
  unfold wakeWorker
  split <;> rfl

theorem bag_wakeWaiter (thread : Thread Fn Value Error) : thread.wakeWaiter.bag = thread.bag := by
  unfold wakeWaiter
  split <;> rfl

end Thread

/-- A notified thread keeps its items. -/
theorem Signal.total_deliver {Amount : Type*} [AddCommMonoid Amount]
    {measure : Thread Fn Value Error → Amount}
    (hworker : ∀ thread, measure thread.wakeWorker = measure thread)
    (hwaiter : ∀ thread, measure thread.wakeWaiter = measure thread)
    {signal : Signal} {threads woken : List (Thread Fn Value Error)}
    (hdeliver : signal.deliver threads = some woken) :
    total measure woken = total measure threads := by
  cases signal with
  | quiet =>
      obtain rfl := Option.some.inj hdeliver
      rfl
  | oneWorker index =>
      simp only [deliver] at hdeliver
      split at hdeliver
      · split at hdeliver
        · obtain rfl := Option.some.inj hdeliver
          exact total_modify index hworker
        · simp at hdeliver
      · obtain rfl := Option.some.inj hdeliver
        rfl
  | allWorkers =>
      obtain rfl := Option.some.inj hdeliver
      exact total_map hworker
  | waiters =>
      obtain rfl := Option.some.inj hdeliver
      exact total_map hwaiter

/-- What every thread keeps when it is notified. -/
theorem Signal.forall_deliver {holds : Thread Fn Value Error → Prop}
    (hworker : ∀ thread, holds thread → holds thread.wakeWorker)
    (hwaiter : ∀ thread, holds thread → holds thread.wakeWaiter)
    {signal : Signal} {threads woken : List (Thread Fn Value Error)}
    (hthreads : ∀ thread ∈ threads, holds thread)
    (hdeliver : signal.deliver threads = some woken) : ∀ thread ∈ woken, holds thread := by
  cases signal with
  | quiet =>
      obtain rfl := Option.some.inj hdeliver
      exact hthreads
  | oneWorker index =>
      simp only [deliver] at hdeliver
      split at hdeliver
      · split at hdeliver
        · obtain rfl := Option.some.inj hdeliver
          intro thread hthread
          obtain ⟨position, hposition⟩ := List.mem_iff_getElem?.mp hthread
          rw [List.getElem?_modify, Option.map_eq_map, Option.map_eq_some_iff] at hposition
          obtain ⟨before, hbefore, rfl⟩ := hposition
          have hholds := hthreads before (List.mem_of_getElem? hbefore)
          split
          · exact hworker before hholds
          · exact hholds
        · simp at hdeliver
      · obtain rfl := Option.some.inj hdeliver
        exact hthreads
  | allWorkers =>
      obtain rfl := Option.some.inj hdeliver
      exact List.forall_mem_map.mpr fun thread hthread => hworker thread (hthreads thread hthread)
  | waiters =>
      obtain rfl := Option.some.inj hdeliver
      exact List.forall_mem_map.mpr fun thread hthread => hwaiter thread (hthreads thread hthread)

namespace Pool

variable {pool next : Pool Fn Value Error} {event : Event Fn Value Error}
variable {thread : Thread Fn Value Error} {progress : Progress Fn Value Error}

/-- What the acting thread has after its step, and the others had before, all
threads have after the step. -/
theorem Stepped.forall_threads {holds : Thread Fn Value Error → Prop}
    (hstepped : pool.Stepped event next thread progress)
    (hworker : ∀ thread, holds thread → holds thread.wakeWorker)
    (hwaiter : ∀ thread, holds thread → holds thread.wakeWaiter)
    (hthreads : ∀ thread ∈ pool.threads, holds thread) (hprogress : holds progress.thread) :
    ∀ thread ∈ next.threads, holds thread := by
  refine Signal.forall_deliver hworker hwaiter ?_ hstepped.threads
  intro other hother
  rcases List.mem_or_eq_of_mem_set hother with hmem | rfl
  · exact hthreads other hmem
  · exact hprogress

/-- A measure that a notification does not see changes by what the acting thread
changes. -/
theorem Stepped.total_add {Amount : Type*} [AddCommMonoid Amount]
    {measure : Thread Fn Value Error → Amount}
    (hstepped : pool.Stepped event next thread progress)
    (hworker : ∀ thread, measure thread.wakeWorker = measure thread)
    (hwaiter : ∀ thread, measure thread.wakeWaiter = measure thread) :
    total measure next.threads + measure thread =
      total measure pool.threads + measure progress.thread := by
  rw [Signal.total_deliver hworker hwaiter hstepped.threads]
  exact total_set progress.thread hstepped.found

/-- The refinement: a step of the pool is a run of changes of its bag. -/
theorem changes_of_step (hstep : pool.step event = some next) :
    Config.Changes event.move pool.config next.config := by
  obtain ⟨thread, progress, hstepped⟩ := stepped_of_step hstep
  have htotal := hstepped.total_add Thread.bag_wakeWorker Thread.bag_wakeWaiter
  obtain ⟨others, hothers⟩ := total_of_mem Thread.bag (List.mem_of_getElem? hstepped.found)
  have hnext : total Thread.bag next.threads = others + progress.thread.bag := by
    refine add_right_cancel (b := thread.bag) ?_
    rw [htotal, hothers, add_right_comm]
  have hchanges := (Thread.changes_of_acted hstepped.acted).frame others
  simp only [config, hothers, hnext, hstepped.memory, add_assoc]
  exact hchanges

/-- The rule for invariants of the bag: what every change preserves holds at the
end of every run. -/
theorem changes_invariant (allowed : Move Fn Value Error → Prop)
    (invariant : Config Fn Value Error → Prop)
    (hchange : ∀ {move : Move Fn Value Error} {rest : Bag Fn Value Error}
      {memory memory' : Memory Fn Value Error} {removed added : List (Item Fn Value Error)},
      allowed move → Change move memory removed added memory' →
      invariant (.beside rest removed memory) → invariant (.beside rest added memory'))
    {final : Pool Fn Value Error} {events : List (Event Fn Value Error)}
    (hinvariant : invariant pool.config) (hallowed : ∀ event ∈ events, allowed event.move)
    (hrun : run step pool events = some final) : invariant final.config := by
  have hstep : ∀ (pool : Pool Fn Value Error) (event : Event Fn Value Error)
      (next : Pool Fn Value Error), invariant pool.config → allowed event.move →
      pool.step event = some next → invariant next.config := by
    intro pool event next hinvariant hmove hstep
    exact (changes_of_step hstep).invariant (hchange hmove) hinvariant
  exact run_invariant_of_forall hstep hinvariant hallowed hrun

@[simp]
theorem config_memory (pool : Pool Fn Value Error) : pool.config.memory = pool.memory := rfl

/-- What the threads of a pool amount to at the start. -/
theorem total_start {Amount : Type*} [AddCommMonoid Amount]
    {measure : Thread Fn Value Error → Amount} (workers callers : ℕ)
    (hcaller : measure (.caller .idle) = 0) :
    total measure (start workers callers : Pool Fn Value Error).threads =
      total (fun id => measure (.worker id .loop)) (List.range workers) := by
  have hcallers : total measure (List.replicate callers (.caller .idle)) = 0 :=
    total_eq_zero fun thread hthread => (List.eq_of_mem_replicate hthread).symm ▸ hcaller
  calc
    total measure (start workers callers : Pool Fn Value Error).threads =
        total measure ((List.range workers).map fun id => .worker id .loop) +
          total measure (List.replicate callers (.caller .idle)) := total_append _ _
    _ = total (fun id => measure (.worker id .loop)) (List.range workers) := by
      rw [hcallers, add_zero, total_comp]

theorem start_config (workers callers : ℕ) :
    (start workers callers : Pool Fn Value Error).config =
      ⟨0, (start workers callers : Pool Fn Value Error).memory⟩ := by
  have hthreads : total Thread.bag (start workers callers : Pool Fn Value Error).threads = 0 :=
    (total_start workers callers rfl).trans (total_zero _)
  have hqueues : (start workers callers : Pool Fn Value Error).memory.bag = 0 := by
    rw [Memory.bag, total_eq_zero, total_eq_zero, add_zero]
    · simp [start]
    · simp +contextual [start, List.mem_replicate]
  rw [config, hthreads, hqueues, add_zero]

/-- What the bag weighs, thread by thread, queue by queue and slot by slot. -/
theorem weight_config {Amount : Type*} [AddCommMonoid Amount]
    (measure : Item Fn Value Error → Amount) (pool : Pool Fn Value Error) :
    weight measure pool.config.bag =
      total (fun thread => weight measure thread.bag) pool.threads +
        (total (fun package => measure (.package package)) pool.memory.queues.flatten +
          total (fun stage => weight measure stage.bag) pool.memory.states) := by
  simp only [config, Memory.bag, weight_add, weight_total, weight_singleton, total_flatten]

end Pool

end RpcDemo.Threadpool
